import Mathlib.Data.List.Perm.Subperm
import MusicLibrary.Proofs.Store.Forest

/-! What lies below a folder, at whatever depth. In a forest the way down from a folder comes to an
end as the way up does, since no way up is longer than there are rows. -/

namespace MusicLibrary.Store

/-- The playlist lies in the folder, or in something that lies below the folder. -/
inductive LiesBelow (playlists : Table PlaylistRow) (id : PersistentId) : PlaylistRow → Prop
  | inside {row} (here : row.parentId = some id) : LiesBelow playlists id row
  | deeper {row folder} (mem : folder ∈ playlists.rows) (here : row.parentId = some folder.id)
    (below : LiesBelow playlists id folder) : LiesBelow playlists id row

variable {playlists : Table PlaylistRow} {id : PersistentId} {row : PlaylistRow}
  {folders : List PlaylistRow}

/-- Seen from the folder, the way to what lies below it starts with something that lies in it. -/
theorem LiesBelow.first (h : LiesBelow playlists id row) (mem : row ∈ playlists.rows) :
    ∃ child ∈ playlists.rows, child.parentId = some id ∧
      (row = child ∨ LiesBelow playlists child.id row) := by
  induction h with
  | @inside row here => exact ⟨row, mem, here, .inl rfl⟩
  | @deeper row folder folderMem here below ih =>
    obtain ⟨child, childMem, inside, rfl | further⟩ := ih folderMem
    · exact ⟨folder, childMem, inside, .inr (.inside here)⟩
    · exact ⟨child, childMem, inside, .inr (.deeper folderMem here further)⟩

/-- What lies below something in the folder lies below the folder. -/
theorem LiesBelow.trans {child : PlaylistRow} (h : LiesBelow playlists child.id row)
    (mem : child ∈ playlists.rows) (inside : child.parentId = some id) :
    LiesBelow playlists id row := by
  induction h with
  | inside here => exact .deeper mem here (.inside inside)
  | deeper folderMem here below ih => exact .deeper folderMem here ih

/-- In a forest the folder is there if something lies below it. -/
theorem IsForest.find?_of_liesBelow (forest : IsForest playlists) (mem : row ∈ playlists.rows)
    (below : LiesBelow playlists id row) : ∃ folder, playlists.find? id.key = some folder := by
  obtain ⟨child, childMem, inside, _⟩ := below.first mem
  obtain ⟨folder, folderMem, rfl⟩ := (forest child childMem).1 id inside
  exact ⟨folder, Table.find?_of_mem folderMem⟩

/-- A way up is no longer than there are rows. -/
theorem Above.length_le {place : Option PersistentId} (h : Above playlists place folders) :
    folders.length ≤ playlists.rows.length :=
  (h.nodup.subperm fun _ mem => h.mem_rows mem).length_le

theorem Above.child (h : Above playlists row.parentId folders) (mem : row ∈ playlists.rows)
    {child : PlaylistRow} (inside : child.parentId = some row.id) :
    Above playlists child.parentId (row :: folders) := by
  rw [inside]
  exact .up (Table.find?_of_mem mem) h

/-- What holds of a playlist whenever it holds of all that lies in it holds of every playlist. -/
theorem Grounded.induction {P : PlaylistRow → Prop} (grounded : Grounded playlists)
    (step : ∀ row ∈ playlists.rows,
      (∀ child ∈ playlists.rows, child.parentId = some row.id → P child) → P row) :
    ∀ row ∈ playlists.rows, P row := by
  -- The way up from what lies in a playlist is longer by one, and no way up is longer than `rows`.
  have bounded (n : Nat) : ∀ row ∈ playlists.rows, ∀ folders,
      Above playlists row.parentId folders → playlists.rows.length - folders.length ≤ n →
        P row := by
    induction n with
    | zero =>
      intro row mem folders above full
      refine step row mem fun child _ inside => ?_
      have bound := (above.child mem inside).length_le
      rw [List.length_cons] at bound
      omega
    | succ n ih =>
      intro row mem folders above room
      refine step row mem fun child childMem inside => ?_
      refine ih child childMem (row :: folders) (above.child mem inside) ?_
      rw [List.length_cons]
      omega
  intro row mem
  obtain ⟨folders, above⟩ := grounded row mem
  exact bounded _ row mem folders above (Nat.le_refl _)

end MusicLibrary.Store
