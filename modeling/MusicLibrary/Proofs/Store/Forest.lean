import MusicLibrary.Proofs.PersistentId
import MusicLibrary.Proofs.Store.PlaylistChange

/-! The playlists of a library form a forest. Only the way up from a playlist that is written is
checked; yet no call closes a cycle or orphans a playlist anywhere else. -/

namespace MusicLibrary.Store

/-- The folders above a place, the lowest one first. -/
inductive Above (playlists : Table PlaylistRow) : Option PersistentId → List PlaylistRow → Prop
  | top : Above playlists none []
  | up {parent folder folders} (found : playlists.find? parent.key = some folder)
    (rest : Above playlists folder.parentId folders) :
    Above playlists (some parent) (folder :: folders)

/-- Every folder that a playlist lies in is there, and the way up from the playlist ends at the top
level without meeting a playlist twice. -/
def IsForest (playlists : Table PlaylistRow) : Prop :=
  ∀ row ∈ playlists.rows,
    (∀ parent, row.parentId = some parent → ∃ folder ∈ playlists.rows, folder.id = parent) ∧
      ∃ folders, Above playlists row.parentId folders ∧ ((row :: folders).map (·.id)).Nodup

/-- The rows hold only ids that a store keeps. -/
def KeepsIds (playlists : Table PlaylistRow) : Prop :=
  ∀ row ∈ playlists.rows, row.id ≠ .highBit ∧ row.parentId ≠ some .highBit

/-- From every row there is a way up to the top level. -/
def Grounded (playlists : Table PlaylistRow) : Prop :=
  ∀ row ∈ playlists.rows, ∃ folders, Above playlists row.parentId folders

variable {playlists : Table PlaylistRow} {place : Option PersistentId}
  {row : PlaylistRow} {folders : List PlaylistRow}

/-! There is only one way up. -/

theorem Above.unique {others : List PlaylistRow} (h : Above playlists place folders)
    (h' : Above playlists place others) : folders = others := by
  induction h generalizing others with
  | top =>
    cases h'
    rfl
  | up found rest ih =>
    cases h' with
    | up found' rest' =>
      rw [found] at found'
      cases found'
      rw [ih rest']

theorem Above.mem_rows (h : Above playlists place folders) {folder : PlaylistRow}
    (mem : folder ∈ folders) : folder ∈ playlists.rows := by
  induction h with
  | top => cases mem
  | up found rest ih =>
    rcases List.mem_cons.1 mem with rfl | mem
    · exact Table.mem_of_find? found
    · exact ih mem

/-- The way up from a folder on the way is the shorter rest of the way. -/
theorem Above.of_mem (h : Above playlists place folders) {folder : PlaylistRow}
    (mem : folder ∈ folders) :
    ∃ rest, Above playlists folder.parentId rest ∧ rest.length < folders.length := by
  induction h with
  | top => cases mem
  | @up parent next folders found rest ih =>
    rcases List.mem_cons.1 mem with rfl | mem
    · exact ⟨folders, rest, by simp⟩
    · obtain ⟨further, above, shorter⟩ := ih mem
      refine ⟨further, above, ?_⟩
      rw [List.length_cons]
      omega

theorem Above.not_mem (h : Above playlists row.parentId folders) : row ∉ folders := by
  intro mem
  obtain ⟨rest, above, shorter⟩ := h.of_mem mem
  rw [above.unique h] at shorter
  omega

theorem Above.nodup (h : Above playlists place folders) : folders.Nodup := by
  induction h with
  | top => exact List.nodup_nil
  | up found rest ih => exact List.nodup_cons.2 ⟨rest.not_mem, ih⟩

theorem Above.nodup_ids (h : Above playlists row.parentId folders) (mem : row ∈ playlists.rows) :
    ((row :: folders).map (·.id)).Nodup := by
  have nodup : (row :: folders).Nodup := List.nodup_cons.2 ⟨h.not_mem, h.nodup⟩
  have inside : ∀ other ∈ row :: folders, other ∈ playlists.rows := by
    intro other mem'
    rcases List.mem_cons.1 mem' with rfl | mem'
    · exact mem
    · exact h.mem_rows mem'
  rw [List.Nodup, List.pairwise_map]
  refine nodup.imp_of_mem ?_
  intro a b ha hb different same
  exact different (Table.eq_of_mem_of_key_eq (inside a ha) (inside b hb)
    (congrArg PersistentId.key same))

theorem eq_of_find? (kept : KeepsIds playlists) {id : PersistentId} (hid : id ≠ .highBit)
    (found : playlists.find? id.key = some row) : row.id = id :=
  PersistentId.eq_of_key_eq (kept row (Table.mem_of_find? found)).1 hid (Table.key_of_find? found)

theorem isForest_of_grounded (kept : KeepsIds playlists) (grounded : Grounded playlists) :
    IsForest playlists := by
  intro row mem
  obtain ⟨folders, above⟩ := grounded row mem
  refine ⟨?_, folders, above, above.nodup_ids mem⟩
  intro parent inside
  rw [inside] at above
  cases above with
  | @up _ folder _ found rest =>
    have different : parent ≠ .highBit := by
      rintro rfl
      exact (kept row mem).2 inside
    exact ⟨folder, Table.mem_of_find? found, eq_of_find? kept different found⟩

/-! What the check of a place finds. -/

/-- A place that passes the check lies below folders that were not met before. -/
theorem above_of_checkAbove (kept : KeepsIds playlists) {id : PersistentId}
    {met : List PersistentId} (hplace : place ≠ some .highBit)
    (passed : checkAbove playlists id met place = .ok ()) :
    ∃ folders, Above playlists place folders ∧ ∀ folder ∈ folders, folder.id ∉ met := by
  induction met, place using checkAbove.induct playlists with
  | case1 met => exact ⟨[], .top, by simp⟩
  | case2 met parent again =>
    rw [checkAbove_of_met again] at passed
    cases passed
  | case3 met parent fresh missing =>
    rw [checkAbove_of_missing fresh missing] at passed
    cases passed
  | case4 met parent fresh row found isFolder ih =>
    rw [checkAbove_of_found fresh found, if_pos isFolder] at passed
    obtain ⟨folders, above, unmet⟩ := ih (kept row (Table.mem_of_find? found)).2 passed
    refine ⟨row :: folders, .up found above, ?_⟩
    intro folder mem
    rcases List.mem_cons.1 mem with rfl | mem
    · have same : folder.id = parent := eq_of_find? kept (by simpa using hplace) found
      rw [same]
      simpa using fresh
    · intro before
      exact unmet folder mem (List.mem_cons_of_mem parent before)
  | case5 met parent fresh row found isList =>
    rw [checkAbove_of_found fresh found, if_neg isList] at passed
    cases passed

/-! Writing a row, and taking one out. -/

/-- A row that lies below folders with other keys leaves the way through them open. -/
theorem Above.put (h : Above playlists place folders)
    (other : ∀ folder ∈ folders, folder.id.key ≠ row.id.key) :
    Above (playlists.put row) place folders := by
  induction h with
  | top => exact .top
  | @up parent folder folders found rest ih =>
    have different : parent.key ≠ row.id.key := by
      have same : folder.id.key = parent.key := Table.key_of_find? found
      rw [← same]
      exact other folder List.mem_cons_self
    refine .up ?_ (ih fun next mem => other next (List.mem_cons_of_mem folder mem))
    rw [Table.find?_put]
    exact (if_neg different).trans found

/-- Once a row that is written has its way up, every other way goes on where it reaches that row. -/
theorem Above.reroute {above : List PlaylistRow}
    (own : Above (playlists.put row) row.parentId above) (h : Above playlists place folders) :
    ∃ others, Above (playlists.put row) place others := by
  induction h with
  | top => exact ⟨[], .top⟩
  | @up parent folder folders found rest ih =>
    have found' := Table.find?_put playlists row parent.key
    by_cases same : parent.key = row.id.key
    · exact ⟨row :: above, .up (found'.trans (if_pos same)) own⟩
    · obtain ⟨others, further⟩ := ih
      exact ⟨folder :: others, .up (found'.trans ((if_neg same).trans found)) further⟩

theorem Grounded.put (grounded : Grounded playlists) {above : List PlaylistRow}
    (own : Above (playlists.put row) row.parentId above) : Grounded (playlists.put row) := by
  intro other mem
  rcases Table.mem_put.1 mem with rfl | ⟨mem, _⟩
  · exact ⟨above, own⟩
  · obtain ⟨folders, way⟩ := grounded other mem
    exact own.reroute way

theorem Above.erase {id : PersistentId} (h : Above playlists place folders)
    (outside : place.map PersistentId.key ≠ some id.key)
    (bare : ∀ row ∈ playlists.rows, row.parentId.map PersistentId.key ≠ some id.key) :
    Above (playlists.erase id.key) place folders := by
  induction h with
  | top => exact .top
  | @up parent folder folders found rest ih =>
    refine .up ?_ (ih (bare folder (Table.mem_of_find? found)))
    rw [Table.find?_erase, if_neg (by simpa using outside)]
    exact found

theorem Grounded.erase {id : PersistentId} (grounded : Grounded playlists)
    (bare : ∀ row ∈ playlists.rows, row.parentId.map PersistentId.key ≠ some id.key) :
    Grounded (playlists.erase id.key) := by
  intro row mem
  obtain ⟨mem, _⟩ := Table.mem_erase.1 mem
  obtain ⟨folders, way⟩ := grounded row mem
  exact ⟨folders, way.erase (bare row mem) bare⟩

theorem ne_of_hasChildren_eq_false {store : Store} {id : PersistentId}
    (bare : store.hasChildren id = false) :
    ∀ row ∈ store.playlists.rows, row.parentId.map PersistentId.key ≠ some id.key := by
  simpa [hasChildren] using bare

/-! Transactions and calls. -/

theorem KeepsIds.put (kept : KeepsIds playlists) (playlist : Playlist) :
    KeepsIds (playlists.put (.ofPlaylist playlist)) := by
  intro row mem
  rcases Table.mem_put.1 mem with rfl | ⟨mem, _⟩
  · exact ⟨PersistentId.stored_ne_highBit _, PersistentId.map_stored_ne_highBit _⟩
  · exact kept row mem

theorem keepsIds_commit {store : Store} (kept : KeepsIds store.playlists) (t : Transaction) :
    KeepsIds (store.commit t).playlists := by
  have change := store.playlistChange_commit t
  generalize (store.commit t).playlists = rows at change ⊢
  cases change with
  | kept whole => exact kept
  | written whole placed => exact kept.put _
  | merged whole placed bring row id folder parent => exact kept.put _
  | removed whole bare =>
    intro row mem
    exact kept row (Table.mem_erase.1 mem).1

/-- A playlist whose place was checked has a way up that does not lead through itself. -/
theorem Grounded.write {store : Store} (grounded : Grounded store.playlists)
    (kept : KeepsIds store.playlists) {playlist : Playlist} (hid : playlist.id ≠ .highBit)
    (hparent : playlist.parentId ≠ some .highBit)
    (placed : store.checkHierarchy playlist = .ok ()) :
    Grounded (store.playlists.put (.ofPlaylist playlist)) := by
  obtain ⟨folders, above, unmet⟩ := above_of_checkAbove kept hparent placed
  have parent : (PlaylistRow.ofPlaylist playlist).parentId = playlist.parentId :=
    PersistentId.map_stored_eq hparent
  have own : Above (store.playlists.put (.ofPlaylist playlist))
      (PlaylistRow.ofPlaylist playlist).parentId folders := by
    rw [parent]
    apply above.put
    intro folder mem same
    change folder.id.key = playlist.id.stored.key at same
    rw [PersistentId.key_stored] at same
    have keeps := (kept folder (above.mem_rows mem)).1
    exact unmet folder mem (List.mem_singleton.2 (PersistentId.eq_of_key_eq keeps hid same))
  exact grounded.put own

theorem ne_highBit_of_brought? {t : Transaction} {playlist : Playlist}
    (named : .highBit ∉ t.playlistIds) (bring : t.brought? = some playlist) :
    playlist.id ≠ .highBit ∧ playlist.parentId ≠ some .highBit := by
  unfold Transaction.brought? at bring
  split at bring
  · cases bring
    simp only [Transaction.playlistIds, Edit.playlistIds, List.mem_cons, not_or,
      Option.mem_toList] at named
    exact ⟨Ne.symm named.1, named.2⟩
  · rename_i options record
    obtain ⟨id, name, rfl⟩ := Option.map_eq_some_iff.1 bring
    simp only [Transaction.playlistIds, LibraryRecord.playlistIds, name, Option.toList_some,
      List.cons_append, List.nil_append, List.mem_cons, not_or, Option.mem_toList] at named
    exact ⟨Ne.symm named.1, named.2⟩
  · cases bring

theorem grounded_commit {store : Store} {t : Transaction} (named : .highBit ∉ t.playlistIds)
    (kept : KeepsIds store.playlists) (grounded : Grounded store.playlists) :
    Grounded (store.commit t).playlists := by
  have change := store.playlistChange_commit t
  generalize (store.commit t).playlists = rows at change ⊢
  cases change with
  | kept whole => exact grounded
  | written whole placed =>
    obtain ⟨hid, hparent⟩ := ne_highBit_of_brought? named (brought?_of_overwrite? whole)
    exact grounded.write kept hid hparent placed
  | merged whole placed bring read id folder parent =>
    obtain ⟨row, found, storedId, storedParent, _⟩ := of_playlist? read
    obtain ⟨keptId, keptParent⟩ := kept row (Table.mem_of_find? found)
    refine grounded.write kept ?_ ?_ placed
    · rw [id, storedId]
      exact keptId
    · rcases parent with parent | parent
      · rw [parent, storedParent]
        exact keptParent
      · rw [parent]
        exact (ne_highBit_of_brought? named bring).2
  | removed whole bare => exact grounded.erase (ne_of_hasChildren_eq_false bare)

theorem keepsIds_empty : KeepsIds Store.empty.playlists := by
  intro row mem
  cases mem

/-- Whatever is called in whatever order, as long as the one id that is not kept names no playlist
and no folder, the playlists of the library form a forest. -/
theorem isForest_callAll (calls : List Call) (named : ∀ c ∈ calls, .highBit ∉ c.playlistIds) :
    IsForest (Store.empty.callAll calls).playlists := by
  have step : ∀ t ∈ Store.empty.history calls, ∀ store : Store,
      KeepsIds store.playlists ∧ Grounded store.playlists →
        KeepsIds (store.commit t).playlists ∧ Grounded (store.commit t).playlists := by
    rintro t mem store ⟨kept, grounded⟩
    refine ⟨keepsIds_commit kept t, grounded_commit ?_ kept grounded⟩
    intro highBit
    obtain ⟨c, hc, unwanted⟩ := mem_playlistIds_of_mem_history mem highBit
    exact named c hc unwanted
  have start : KeepsIds Store.empty.playlists ∧ Grounded Store.empty.playlists :=
    ⟨keepsIds_empty, fun row mem => by cases mem⟩
  have reached := run_induction step start
  rw [run_history] at reached
  exact isForest_of_grounded reached.1 reached.2

/-- Two nested folders, a list that a first stream puts below them, and a record that would close a
cycle; a second stream prunes the list. -/
def nestedFolders : List Call :=
  let options : Sync.Options := { owner := some 7, actor := "sync", now := ⟨0⟩ }
  let rock := Playlist.empty ⟨1⟩ "Rock" .folder
  let live := { Playlist.empty ⟨2⟩ "Live" .folder with parentId := some ⟨1⟩ }
  let list := { name := some "Wembley", persistentId := some ⟨3⟩, parentPersistentId := some ⟨2⟩ }
  let cycle := { name := some "Rock", persistentId := some ⟨1⟩, parentPersistentId := some ⟨2⟩,
                 folder := some true }
  [.edit (.savePlaylist rock "user"), .edit (.savePlaylist live "user"),
   .stream options [.ok (.playlist list), .ok (.playlist cycle)], .stream options []]

theorem isForest_nestedFolders :
    (∀ c ∈ nestedFolders, .highBit ∉ c.playlistIds) ∧
      IsForest (Store.empty.callAll nestedFolders).playlists :=
  ⟨by decide, isForest_callAll nestedFolders (by decide)⟩

end MusicLibrary.Store
