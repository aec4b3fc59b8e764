import MusicLibrary.Proofs.Store.Forest

/-! Whether parents are folders. What a playlist is put into is checked, but not what already lies
in the playlist. So a write can turn a folder with contents into a list, and that is the only way
in which a parent ceases to be a folder. -/

namespace MusicLibrary.Store

/-- Whatever another playlist lies in is a folder. -/
def ParentsAreFolders (playlists : Table PlaylistRow) : Prop :=
  ∀ row ∈ playlists.rows, ∀ parent ∈ playlists.rows,
    row.id ≠ parent.id → row.parentId = some parent.id → parent.folder = true

instance (playlists : Table PlaylistRow) : Decidable (ParentsAreFolders playlists) :=
  inferInstanceAs (Decidable (∀ row ∈ playlists.rows, ∀ parent ∈ playlists.rows,
    row.id ≠ parent.id → row.parentId = some parent.id → parent.folder = true))

/-- The transaction overwrites a playlist in which another one lies with something that is no
folder. -/
def Demotes (store : Store) (t : Transaction) : Prop :=
  ∃ playlist, store.overwrite? t = some playlist ∧ playlist.folder = false ∧
    ∃ row ∈ store.playlists.rows, row.id ≠ playlist.id.stored ∧
      row.parentId = some playlist.id.stored

variable {playlists : Table PlaylistRow} {row : PlaylistRow}

theorem folder_of_checkAbove {id parent : PersistentId} {met : List PersistentId}
    (passed : checkAbove playlists id met (some parent) = .ok ()) :
    ∃ folder, playlists.find? parent.key = some folder ∧ folder.folder = true := by
  by_cases again : met.contains parent
  · rw [checkAbove_of_met again] at passed
    cases passed
  cases found : playlists.find? parent.key with
  | none =>
    rw [checkAbove_of_missing again found] at passed
    cases passed
  | some folder =>
    rw [checkAbove_of_found again found] at passed
    by_cases isFolder : folder.folder
    · exact ⟨folder, rfl, isFolder⟩
    · rw [if_neg isFolder] at passed
      cases passed

/-- A playlist that may be written lies in a folder, whichever row its place is stored as. -/
theorem folder_of_checkHierarchy {store : Store} {playlist : Playlist} {parent : PlaylistRow}
    (placed : store.checkHierarchy playlist = .ok ()) (mem : parent ∈ store.playlists.rows)
    (inside : (PlaylistRow.ofPlaylist playlist).parentId = some parent.id) :
    parent.folder = true := by
  obtain ⟨place, hplace, same⟩ := Option.map_eq_some_iff.1 inside
  unfold checkHierarchy at placed
  rw [hplace] at placed
  obtain ⟨folder, found, isFolder⟩ := folder_of_checkAbove placed
  have key : Keyed.key parent = place.key := by
    change parent.id.key = place.key
    rw [← same, PersistentId.key_stored]
  have itself := Table.find?_of_mem mem
  rw [key, found] at itself
  cases itself
  exact isFolder

theorem ParentsAreFolders.put {store : Store} (h : ParentsAreFolders store.playlists)
    {playlist : Playlist} (placed : store.checkHierarchy playlist = .ok ())
    (own : ∀ row ∈ store.playlists.rows, row.id ≠ playlist.id.stored →
      row.parentId = some playlist.id.stored → playlist.folder = true) :
    ParentsAreFolders (store.playlists.put (.ofPlaylist playlist)) := by
  intro row hrow parent hparent different inside
  rcases Table.mem_put.1 hparent with rfl | ⟨hparent, _⟩
  · rcases Table.mem_put.1 hrow with rfl | ⟨hrow, _⟩
    · exact absurd rfl different
    · exact own row hrow different inside
  · rcases Table.mem_put.1 hrow with rfl | ⟨hrow, _⟩
    · exact folder_of_checkHierarchy placed hparent inside
    · exact h row hrow parent hparent different inside

theorem ParentsAreFolders.erase (h : ParentsAreFolders playlists) (key : Key) :
    ParentsAreFolders (playlists.erase key) := by
  intro row hrow parent hparent
  exact h row (Table.mem_erase.1 hrow).1 parent (Table.mem_erase.1 hparent).1

/-- A transaction keeps the parents folders exactly if it demotes none of them. -/
theorem parentsAreFolders_commit_iff {store : Store} (kept : KeepsIds store.playlists)
    (h : ParentsAreFolders store.playlists) (t : Transaction) :
    ParentsAreFolders (store.commit t).playlists ↔ ¬ store.Demotes t := by
  have change := store.playlistChange_commit t
  generalize (store.commit t).playlists = rows at change ⊢
  have untouched (whole : store.overwrite? t = none) : ¬ store.Demotes t := by
    rintro ⟨playlist, some, _⟩
    rw [whole] at some
    cases some
  cases change with
  | kept whole => exact iff_of_true h (untouched whole)
  | removed whole bare => exact iff_of_true (h.erase _) (untouched whole)
  | @merged playlist brought stored whole placed bring read id folder parent =>
    refine iff_of_true (h.put placed ?_) (untouched whole)
    -- The merged row keeps the shape of the row that it replaces, which others lay in before.
    intro row mem different inside
    obtain ⟨before, found, storedId, _, storedFolder⟩ := of_playlist? read
    have mem' := Table.mem_of_find? found
    have same : playlist.id.stored = before.id := by
      rw [id, storedId]
      exact PersistentId.stored_eq (kept before mem').1
    rw [same] at different inside
    rw [folder, storedFolder]
    exact h row mem before mem' different inside
  | @written playlist whole placed =>
    constructor
    · rintro after ⟨other, some, isList, row, mem, different, inside⟩
      rw [whole] at some
      cases some
      have mem' : row ∈ (store.playlists.put (.ofPlaylist playlist)).rows := by
        refine Table.mem_put.2 (.inr ⟨mem, ?_⟩)
        intro same
        refine different (PersistentId.eq_of_key_eq (kept row mem).1 ?_ same)
        exact PersistentId.stored_ne_highBit _
      have isFolder := after row mem' _ (Table.mem_put.2 (.inl rfl)) different inside
      change playlist.folder = true at isFolder
      rw [isList] at isFolder
      cases isFolder
    · intro demotes
      refine h.put placed ?_
      intro row mem different inside
      cases isList : playlist.folder with
      | true => rfl
      | false => exact absurd ⟨playlist, whole, isList, row, mem, different, inside⟩ demotes

/-- Of all transactions that calls are made of, only one that demotes a folder can bring about a
parent that is no folder: parents are folders all along exactly if none does. -/
theorem parentsAreFolders_throughout_iff (calls : List Call) :
    (∀ before, before <+: Store.empty.history calls →
        ParentsAreFolders (Store.empty.run before).playlists) ↔
      ∀ before t, before ++ [t] <+: Store.empty.history calls →
        ¬ (Store.empty.run before).Demotes t := by
  have kept (before : List Transaction) : KeepsIds (Store.empty.run before).playlists :=
    run_induction (P := fun store => KeepsIds store.playlists)
      (fun t _ store kept => keepsIds_commit kept t) keepsIds_empty
  have last (before : List Transaction) (t : Transaction) :
      Store.empty.run (before ++ [t]) = (Store.empty.run before).commit t := by
    rw [run_append, run_cons, run_nil]
  constructor
  · intro always before t whole
    rw [← parentsAreFolders_commit_iff (kept before), ← last]
    · exact always _ whole
    · exact always before ((List.prefix_append before [t]).trans whole)
  · intro never before
    -- From the front to the back: the last transaction is met in a store that is as it should be.
    induction h : before.length generalizing before with
    | zero =>
      intro _ row mem
      rw [List.length_eq_zero_iff.1 h] at mem
      cases mem
    | succ n ih =>
      rcases before.eq_nil_or_concat with rfl | ⟨earlier, t, rfl⟩
      · cases h
      rw [List.concat_eq_append] at h ⊢
      intro whole
      have shorter : earlier.length = n := by
        rw [List.length_append, List.length_singleton] at h
        omega
      have folders := ih earlier shorter ((List.prefix_append earlier [t]).trans whole)
      rw [last]
      exact (parentsAreFolders_commit_iff (kept earlier) folders t).2 (never earlier t whole)

/-- A folder, a list in it, and the folder saved once more as a list. -/
def demotedFolder : List Call :=
  let list := { Playlist.empty ⟨2⟩ "Live" .standard with parentId := some ⟨1⟩ }
  [.edit (.savePlaylist (Playlist.empty ⟨1⟩ "Rock" .folder) "user"),
   .edit (.savePlaylist list "user"),
   .edit (.savePlaylist (Playlist.empty ⟨1⟩ "Rock" .standard) "user")]

theorem not_parentsAreFolders_demotedFolder :
    ¬ ParentsAreFolders (Store.empty.callAll demotedFolder).playlists := by
  decide +kernel

end MusicLibrary.Store
