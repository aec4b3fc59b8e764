import MusicLibrary.Track.Basic

/-! The JSON form of a track: its id, and the columns that hold a value. -/

namespace MusicLibrary.Track

def idLabel : String := "id"

def toJson (track : Track) : Json :=
  .object ((idLabel, track.id.toJson) :: FieldFamily.members track.get)

/-- Reads a track by names, or by position with the id first. -/
def ofJson? (j : Json) : Option Track := do
  let fields ← j.fields? (idLabel :: FieldFamily.labels Column)
  let id ← fields.required idLabel PersistentId.ofJson?
  let value ← FieldFamily.read? (F := Column) fields
  return ofColumns id value

end MusicLibrary.Track
