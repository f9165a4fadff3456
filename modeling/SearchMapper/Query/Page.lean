import SearchMapper.Dictionary
import SearchMapper.Query.Field
import SearchMapper.Query.Window

namespace SearchMapper

structure Page (α : Type) where
  content : List α
  window : Option Window
  total : Nat

namespace Page

variable {α β : Type}

def empty : Page α :=
  ⟨[], none, 0⟩

/-- Without a window all is one page. -/
def totalPages (p : Page α) : Nat :=
  match p.window with
  | some w => (p.total + w.size - 1) / w.size
  | none => if p.total = 0 then 0 else 1

def number (p : Page α) : Nat :=
  (p.window.map Window.number).getD 0

def hasNext (p : Page α) : Bool :=
  match p.window with
  | some w => w.offset + p.content.length < p.total
  | none => false

def map (p : Page α) (f : α → β) : Page β :=
  ⟨p.content.map f, p.window, p.total⟩

end Page

structure FacetEntry where
  field : Field
  value : String
  count : Nat

structure FacetPage (α : Type) where
  page : Page α
  facets : Dictionary (Page FacetEntry) := []

namespace FacetPage

variable {α : Type}

def addFacet (p : FacetPage α) (field : Field) (entries : Page FacetEntry) : FacetPage α :=
  { p with facets := p.facets.insert field.name entries }

def addCounts (p : FacetPage α) (field : Field) (counts : List (String × Nat)) : FacetPage α :=
  p.addFacet field
    ⟨counts.map fun (value, count) => ⟨field, value, count⟩, none, counts.length⟩

end FacetPage

end SearchMapper
