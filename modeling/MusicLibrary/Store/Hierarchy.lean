import MusicLibrary.Store.Basic

/-! The place of a playlist among the folders. The folders above it are followed upward: they have
to exist, to be folders, and to end at the top level without coming round. -/

namespace MusicLibrary.Store

/-- The ids under which the rows of a table can be asked for: the one that a row comes back with,
and the one that falls together with zero. -/
def askedIds (rows : List PlaylistRow) : List PersistentId :=
  .highBit :: rows.map fun row => row.id.stored

def unmet (rows : List PlaylistRow) (met : List PersistentId) : Nat :=
  ((askedIds rows).filter (! met.contains ·)).length

theorem mem_askedIds {playlists : Table PlaylistRow} {id : PersistentId} {row : PlaylistRow}
    (h : playlists.find? id.key = some row) : id ∈ askedIds playlists.rows := by
  by_cases high : id = .highBit
  · simp [askedIds, high]
  · refine List.mem_cons_of_mem _ (List.mem_map.2 ⟨row, Table.mem_of_find? h, ?_⟩)
    have same : row.id.key = id.key := Table.key_of_find? h
    rw [PersistentId.stored, same]
    exact PersistentId.stored_eq high

theorem unmet_cons_lt {rows : List PlaylistRow} {met : List PersistentId} {id : PersistentId}
    (mem : id ∈ askedIds rows) (fresh : ¬ met.contains id) :
    unmet rows (id :: met) < unmet rows met := by
  have step : (askedIds rows).filter (! (id :: met).contains ·) =
      ((askedIds rows).filter (! met.contains ·)).filter (· ≠ id) := by
    rw [List.filter_filter]
    refine List.filter_congr fun other _ => ?_
    by_cases same : other = id <;> simp [same]
  rw [unmet, unmet, step, List.length_filter_lt_length_iff_exists]
  exact ⟨id, List.mem_filter.2 ⟨mem, by simpa using fresh⟩, by simp⟩

def checkAbove (playlists : Table PlaylistRow) (id : PersistentId) (met : List PersistentId) :
    Option PersistentId → Except Failure Unit
  | none => .ok ()
  | some parent =>
    if _ : met.contains parent then .error (.circularFolder id.hex parent.hex)
    else match _ : playlists.find? parent.key with
      | none => .error (.noSuchFolder id.hex parent.hex)
      | some row =>
        if row.folder then checkAbove playlists id (parent :: met) row.parentId
        else .error (.parentNotAFolder id.hex parent.hex)
termination_by unmet playlists.rows met
decreasing_by exact unmet_cons_lt (mem_askedIds ‹_›) ‹_›

@[simp] theorem checkAbove_none (playlists : Table PlaylistRow) (id : PersistentId)
    (met : List PersistentId) : checkAbove playlists id met none = .ok () := by rw [checkAbove]

section

variable {playlists : Table PlaylistRow} {id parent : PersistentId} {met : List PersistentId}
  {row : PlaylistRow}

theorem checkAbove_of_met (again : met.contains parent) :
    checkAbove playlists id met (some parent) = .error (.circularFolder id.hex parent.hex) := by
  rw [checkAbove, dif_pos again]

theorem checkAbove_of_missing (fresh : ¬ met.contains parent)
    (missing : playlists.find? parent.key = none) :
    checkAbove playlists id met (some parent) = .error (.noSuchFolder id.hex parent.hex) := by
  rw [checkAbove, dif_neg fresh]
  split
  · rfl
  · simp_all

theorem checkAbove_of_found (fresh : ¬ met.contains parent)
    (found : playlists.find? parent.key = some row) :
    checkAbove playlists id met (some parent) =
      if row.folder then checkAbove playlists id (parent :: met) row.parentId
      else .error (.parentNotAFolder id.hex parent.hex) := by
  rw [checkAbove, dif_neg fresh]
  split
  · simp_all
  · simp_all

end

def checkHierarchy (store : Store) (playlist : Playlist) : Except Failure Unit :=
  checkAbove store.playlists playlist.id [playlist.id] playlist.parentId

end MusicLibrary.Store
