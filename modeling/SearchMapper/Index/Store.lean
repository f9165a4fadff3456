import SearchMapper.Index.Search

namespace SearchMapper

namespace Index

inductive Write
  | add (record : Record)
  | deleteId (id : String)
  | deleteMatches (query : Expr)

end Index

open Index (Expr Refusal Write)

structure Store where
  keyField : String := "id"
  committed : Dictionary Record := []
  staged : List Write := []
  requests : List Request := []
  /-- Answers that come before any evaluation, in order. -/
  scripted : List (Except String Response) := []

namespace Store

def apply (keyField : String) (committed : Dictionary Record) : Write → Dictionary Record
  | .add record =>
    match record.valueText? keyField with
    | some key => committed.insert key record
    | none => committed
  | .deleteId id => committed.erase id
  | .deleteMatches query => committed.filter fun (_, record) => !query.holds record

def commit (s : Store) : Store :=
  { s with committed := s.staged.foldl (apply s.keyField) s.committed, staged := [] }

def rollback (s : Store) : Store :=
  { s with staged := [] }

def stage (writes : List Write) (s : Store) : Store :=
  { s with staged := s.staged ++ writes }

/-- Stages records up to the first one without a key. -/
def add (records : List Record) (s : Store) : Except Refusal Unit × Store :=
  match records with
  | [] => (.ok (), s)
  | record :: rest =>
    match record.valueText? s.keyField with
    | none => (.error (.missingKey s.keyField), s)
    | some _ => add rest (s.stage [.add record])

def deleteIds (ids : List String) (s : Store) : Store :=
  s.stage (ids.map .deleteId)

def deleteMatches (query : String) (s : Store) : Except Refusal Unit × Store :=
  match Expr.ofText query with
  | .error cause => (.error (.unreadable cause), s)
  | .ok e => (.ok (), s.stage [.deleteMatches e])

def query (r : Request) (s : Store) : Except Refusal Response × Store :=
  let s := { s with requests := s.requests ++ [r] }
  match s.scripted with
  | next :: rest => (next.mapError .scripted, { s with scripted := rest })
  | [] => ((Index.answer s.committed r).mapError .unreadable, s)

def pushResponse (r : Response) (s : Store) : Store :=
  { s with scripted := s.scripted ++ [.ok r] }

def pushFailure (message : String) (s : Store) : Store :=
  { s with scripted := s.scripted ++ [.error message] }

end Store

end SearchMapper
