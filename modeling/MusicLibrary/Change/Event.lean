import MusicLibrary.Record.Basic

/-! Change events: what a synchronisation tells about each entry that it wrote or removed. -/

namespace MusicLibrary

inductive ChangeKind where
  | created | changed | deleted
  deriving DecidableEq, Inhabited

def ChangeKind.label : ChangeKind → String
  | .created => "created"
  | .changed => "changed"
  | .deleted => "deleted"

def ChangeKind.ofLabel? (s : String) : Option ChangeKind :=
  [ChangeKind.created, .changed, .deleted].find? (·.label == s)

structure ChangeEvent where
  kind : EntityKind
  id : PersistentId
  change : ChangeKind
  deriving DecidableEq, Inhabited

def ChangeEvent.toJson (event : ChangeEvent) : Json :=
  .object [("kind", .text event.kind.label), ("id", event.id.toJson),
    ("change", .text event.change.label)]

@[simp] theorem ChangeKind.ofLabel?_label (change : ChangeKind) :
    ofLabel? change.label = some change := by
  cases change <;> decide

end MusicLibrary
