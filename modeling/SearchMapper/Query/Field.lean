import SearchMapper.Error
import SearchMapper.Text.Blank

namespace SearchMapper

structure Field where
  name : String
  visible : Text.isBlankText name = false
deriving DecidableEq

namespace Field

def named (name : String) : Except Error Field :=
  if h : Text.isBlankText name then .error .blankFieldName
  else .ok ⟨name, by simpa using h⟩

/-- The field that stands for every field; query texts do not name it. -/
def wildcard : Field :=
  ⟨"*", by decide⟩

def isWildcard (f : Field) : Bool :=
  f.name = "*"

theorem named_name (f : Field) : named f.name = .ok f :=
  dif_neg (by rw [f.visible]; decide)

theorem name_of_named {name : String} {f : Field} (h : named name = .ok f) : f.name = name := by
  unfold named at h
  split at h
  · cases h
  · exact congrArg Field.name (Except.ok.inj h).symm

theorem named_of_blank {name : String} (h : Text.isBlankText name) :
    named name = .error .blankFieldName :=
  dif_pos h

end Field

end SearchMapper
