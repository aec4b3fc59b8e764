import Mathlib.Data.List.Nodup
import MusicLibrary.Store.Hierarchy

/-! What the check of a place decides. Parents are followed upward from folder to folder, in a table
that need not be a forest: it may hold cycles, parents that are missing, and parents that are no
folders. A place passes exactly if the way up from it ends at the top level and meets nothing twice;
else the check tells what stops it first. Two steps more than there are rows are always enough. -/

namespace MusicLibrary.Store

/-- The way up from a place to another one through folders that are there, with the ids that they
are asked for. -/
inductive Climb (playlists : Table PlaylistRow) :
    Option PersistentId → List PersistentId → Option PersistentId → Prop
  | stay (place) : Climb playlists place [] place
  | up {parent row folders above} (found : playlists.find? parent.key = some row)
    (isFolder : row.folder = true) (rest : Climb playlists row.parentId folders above) :
    Climb playlists (some parent) (parent :: folders) above

/-- What is wrong with the next parent on the way of a playlist, and how it is told. A parent that
was met before is refused without a look at its row. -/
inductive Stops (playlists : Table PlaylistRow) (id : PersistentId) (met : List PersistentId)
    (parent : PersistentId) : Failure → Prop
  | again (known : parent ∈ met) :
    Stops playlists id met parent (.circularFolder id.hex parent.hex)
  | missing (fresh : parent ∉ met) (missing : playlists.find? parent.key = none) :
    Stops playlists id met parent (.noSuchFolder id.hex parent.hex)
  | list {row} (fresh : parent ∉ met) (found : playlists.find? parent.key = some row)
    (isList : row.folder = false) :
    Stops playlists id met parent (.parentNotAFolder id.hex parent.hex)

variable {playlists : Table PlaylistRow} {id parent : PersistentId} {met : List PersistentId}
  {place above : Option PersistentId} {folders : List PersistentId} {failure : Failure}

theorem Stops.congr {others : List PersistentId} (h : Stops playlists id met parent failure)
    (same : ∀ other, other ∈ met ↔ other ∈ others) : Stops playlists id others parent failure := by
  cases h with
  | again known => exact .again ((same parent).1 known)
  | missing fresh missing => exact .missing (fun known => fresh ((same parent).2 known)) missing
  | list fresh found isList =>
    exact .list (fun known => fresh ((same parent).2 known)) found isList

theorem checkAbove_of_stops (h : Stops playlists id met parent failure) :
    checkAbove playlists id met (some parent) = .error failure := by
  cases h with
  | again known => exact checkAbove_of_met (List.contains_iff_mem.2 known)
  | missing fresh missing =>
    exact checkAbove_of_missing (fun known => fresh (List.contains_iff_mem.1 known)) missing
  | list fresh found isList =>
    rw [checkAbove_of_found (fun known => fresh (List.contains_iff_mem.1 known)) found, if_neg]
    exact Bool.eq_false_iff.1 isList

/-- The check of a place goes on where a climb leads to, with the folders of the climb met. -/
theorem checkAbove_of_climb (climb : Climb playlists place folders above)
    (fresh : (folders.reverse ++ met).Nodup) :
    checkAbove playlists id met place = checkAbove playlists id (folders.reverse ++ met) above := by
  induction climb generalizing met with
  | stay place => rfl
  | @up parent row folders above found isFolder rest ih =>
    rw [List.reverse_cons, List.append_assoc, List.singleton_append] at fresh ⊢
    have unmet : parent ∉ met := (List.nodup_cons.1 fresh.of_append_right).1
    rw [checkAbove_of_found (fun known => unmet (List.contains_iff_mem.1 known)) found,
      if_pos isFolder]
    exact ih fresh

/-- From every place there is a way up that meets nothing twice and either ends at the top level or
is stopped. -/
theorem exists_climb (playlists : Table PlaylistRow) (id : PersistentId) (met : List PersistentId)
    (place : Option PersistentId) (fresh : met.Nodup) :
    ∃ folders above, Climb playlists place folders above ∧ (folders.reverse ++ met).Nodup ∧
      ∀ parent, above = some parent →
        ∃ failure, Stops playlists id (folders.reverse ++ met) parent failure := by
  -- A climb that is stopped where it starts.
  have stuck {met : List PersistentId} {parent : PersistentId} {failure : Failure}
      (fresh : met.Nodup) (h : Stops playlists id met parent failure) :
      ∃ folders above, Climb playlists (some parent) folders above ∧
        (folders.reverse ++ met).Nodup ∧ ∀ parent, above = some parent →
          ∃ failure, Stops playlists id (folders.reverse ++ met) parent failure := by
    refine ⟨[], some parent, .stay _, fresh, ?_⟩
    rintro _ ⟨rfl⟩
    exact ⟨failure, h⟩
  induction met, place using checkAbove.induct playlists with
  | case1 met => exact ⟨[], none, .stay none, fresh, nofun⟩
  | case2 met parent again => exact stuck fresh (.again (List.contains_iff_mem.1 again))
  | case3 met parent unmet missing =>
    exact stuck fresh (.missing (fun known => unmet (List.contains_iff_mem.2 known)) missing)
  | case4 met parent unmet row found isFolder ih =>
    have known : parent ∉ met := fun known => unmet (List.contains_iff_mem.2 known)
    obtain ⟨folders, above, climb, nodup, stops⟩ := ih (List.nodup_cons.2 ⟨known, fresh⟩)
    refine ⟨parent :: folders, above, .up found isFolder climb, ?_⟩
    rw [List.reverse_cons, List.append_assoc, List.singleton_append]
    exact ⟨nodup, stops⟩
  | case5 met parent unmet row found isList =>
    exact stuck fresh (.list (fun known => unmet (List.contains_iff_mem.2 known)) found
      (Bool.eq_false_iff.2 isList))

/-- The check of a playlist goes on where a climb from its place leads to. -/
theorem checkHierarchy_of_climb {store : Store} {playlist : Playlist}
    (climb : Climb store.playlists playlist.parentId folders above)
    (fresh : (playlist.id :: folders).Nodup) : store.checkHierarchy playlist =
      checkAbove store.playlists playlist.id (playlist.id :: folders).reverse above := by
  rw [← List.nodup_reverse, List.reverse_cons] at fresh
  rw [List.reverse_cons]
  exact checkAbove_of_climb climb fresh

theorem checkHierarchy_of_stops {store : Store} {playlist : Playlist}
    (climb : Climb store.playlists playlist.parentId folders (some parent))
    (fresh : (playlist.id :: folders).Nodup)
    (stop : Stops store.playlists playlist.id (playlist.id :: folders) parent failure) :
    store.checkHierarchy playlist = .error failure := by
  rw [checkHierarchy_of_climb climb fresh]
  exact checkAbove_of_stops (stop.congr fun _ => List.mem_reverse.symm)

/-- The way up from the place of a playlist to the top level, or to what stops it first. -/
theorem exists_climb_of_playlist (store : Store) (playlist : Playlist) :
    ∃ folders above, Climb store.playlists playlist.parentId folders above ∧
      (playlist.id :: folders).Nodup ∧ ∀ parent, above = some parent → ∃ failure,
        Stops store.playlists playlist.id (playlist.id :: folders) parent failure := by
  obtain ⟨folders, above, climb, fresh, stops⟩ := exists_climb store.playlists playlist.id
    [playlist.id] playlist.parentId (List.nodup_singleton _)
  rw [← List.reverse_cons] at fresh stops
  refine ⟨folders, above, climb, List.nodup_reverse.1 fresh, fun parent next => ?_⟩
  obtain ⟨failure, stop⟩ := stops parent next
  exact ⟨failure, stop.congr fun _ => List.mem_reverse⟩

/-! Steps. -/

/-- The check of a place, broken off after some steps. Each step looks at one place. -/
def checkWithin (playlists : Table PlaylistRow) (id : PersistentId) :
    Nat → List PersistentId → Option PersistentId → Option (Except Failure Unit)
  | 0, _, _ => none
  | _ + 1, _, none => some (.ok ())
  | steps + 1, met, some parent =>
    if met.contains parent then some (.error (.circularFolder id.hex parent.hex))
    else match playlists.find? parent.key with
      | none => some (.error (.noSuchFolder id.hex parent.hex))
      | some row =>
        if row.folder then checkWithin playlists id steps (parent :: met) row.parentId
        else some (.error (.parentNotAFolder id.hex parent.hex))

/-- A check is over after one step more than there are ids that it can still meet. -/
theorem checkWithin_of_unmet_le {steps : Nat} (enough : unmet playlists.rows met ≤ steps) :
    checkWithin playlists id (steps + 1) met place = some (checkAbove playlists id met place) := by
  induction met, place using checkAbove.induct playlists generalizing steps with
  | case1 met => rw [checkWithin, checkAbove_none]
  | case2 met parent again => rw [checkWithin, if_pos again, checkAbove_of_met again]
  | case3 met parent fresh missing =>
    rw [checkWithin, if_neg fresh, missing, checkAbove_of_missing fresh missing]
  | case4 met parent fresh row found isFolder ih =>
    have fewer := unmet_cons_lt (mem_askedIds found) fresh
    obtain ⟨left, rfl⟩ := Nat.exists_eq_succ_of_ne_zero (show steps ≠ 0 by omega)
    rw [checkWithin, if_neg fresh, found, checkAbove_of_found fresh found, if_pos isFolder]
    simp only [if_pos isFolder]
    exact ih (by omega)
  | case5 met parent fresh row found isList =>
    rw [checkWithin, if_neg fresh, found, checkAbove_of_found fresh found, if_neg isList]
    simp only [if_neg isList]

theorem unmet_le (rows : List PlaylistRow) (met : List PersistentId) :
    unmet rows met ≤ rows.length + 1 := by
  have all := List.length_filter_le (! met.contains ·) (askedIds rows)
  rwa [askedIds, List.length_cons, List.length_map] at all

/-- In any table, a playlist may be written exactly if the way up from its place leads through
folders only, ends at the top level, and meets neither the playlist nor a folder twice. Else the
failure tells the first parent on the way that is wrong. -/
theorem checkHierarchy_decides (store : Store) (playlist : Playlist) :
    checkWithin store.playlists playlist.id (store.playlists.size + 2) [playlist.id]
        playlist.parentId = some (store.checkHierarchy playlist) ∧
      (store.checkHierarchy playlist = .ok () ↔
        ∃ folders, Climb store.playlists playlist.parentId folders none ∧
          (playlist.id :: folders).Nodup) ∧
      ∀ failure, store.checkHierarchy playlist = .error failure ↔
        ∃ folders parent, Climb store.playlists playlist.parentId folders (some parent) ∧
          (playlist.id :: folders).Nodup ∧
          Stops store.playlists playlist.id (playlist.id :: folders) parent failure := by
  obtain ⟨folders, above, climb, fresh, stops⟩ := exists_climb_of_playlist store playlist
  have result := checkHierarchy_of_climb climb fresh
  refine ⟨checkWithin_of_unmet_le (unmet_le _ _), ⟨fun placed => ?_, ?_⟩, fun failure =>
    ⟨fun refused => ?_, ?_⟩⟩
  · cases above with
    | none => exact ⟨folders, climb, fresh⟩
    | some parent =>
      obtain ⟨failure, stop⟩ := stops parent rfl
      rw [checkHierarchy_of_stops climb fresh stop] at placed
      cases placed
  · rintro ⟨folders, climb, fresh⟩
    rw [checkHierarchy_of_climb climb fresh, checkAbove_none]
  · cases above with
    | none =>
      rw [refused, checkAbove_none] at result
      cases result
    | some parent =>
      obtain ⟨other, stop⟩ := stops parent rfl
      rw [checkHierarchy_of_stops climb fresh stop] at refused
      cases refused
      exact ⟨folders, parent, climb, fresh, stop⟩
  · rintro ⟨folders, parent, climb, fresh, stop⟩
    exact checkHierarchy_of_stops climb fresh stop

/-- Two folders that lie in each other stop what is put into one of them. -/
example :
    let folder := fun id parent : PersistentId =>
      PlaylistRow.ofPlaylist { Playlist.empty id "Live" .folder with parentId := some parent }
    let store : Store := { playlists := (Table.empty.put (folder ⟨1⟩ ⟨2⟩)).put (folder ⟨2⟩ ⟨1⟩) }
    let list := { Playlist.empty ⟨3⟩ "Wembley" .standard with parentId := some ⟨1⟩ }
    store.checkHierarchy list =
      .error (.circularFolder (PersistentId.hex ⟨3⟩) (PersistentId.hex ⟨1⟩)) := by
  decide +kernel

end MusicLibrary.Store
