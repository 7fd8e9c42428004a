import GoShape.Command.Disk
import Mathlib.Data.List.Basic
import Mathlib.Tactic.SplitIfs

/-! Files that were written. The way to a file leads through folders only, and these stay folders when
the file is set, so the way leads to the same place again and what was written is found there. -/
namespace GoShape.Command.Disk

theorem exists_of_bind_eq_ok {ε α β : Type} {x : Except ε α} {f : α → Except ε β} {b : β}
    (h : x >>= f = .ok b) : ∃ a, x = .ok a ∧ f a = .ok b := by
  cases x with
  | error e => cases h
  | ok a => exact ⟨a, rfl, h⟩

variable {d : Disk} {place : Place} {node : Node}

theorem mem_places_put {es : List (Place × Node)} {p : Place} (h : p ∈ es.map Prod.fst) :
    p ∈ (put place node es).map Prod.fst := by
  induction es with
  | nil => cases h
  | cons e es ih =>
    rw [put]
    split
    · rename_i he
      have he : e.1 = place := by simpa using he
      simpa [he] using h
    · rcases List.mem_cons.mp h with rfl | h
      · simp
      · exact List.mem_cons_of_mem _ (ih h)

theorem node?_set_self : (d.set place node).node? place = some node := by
  simp [set, node?, find?_put]

theorem leadsOn_set {other : Place} (h : d.leadsOn other = true) :
    (d.set place node).leadsOn other = true := by
  rw [leadsOn, List.any_eq_true] at h ⊢
  obtain ⟨p, hp, hprefix⟩ := h
  refine ⟨p, ?_, hprefix⟩
  rcases List.mem_cons.mp hp with rfl | hp
  · exact List.mem_cons_self
  · exact List.mem_cons_of_mem _ (mem_places_put hp)

/-- A folder stays as it is when something else is set. -/
theorem node?_set_of_folder (hplace : ∀ rights, d.node? place ≠ some (.folder rights))
    {other : Place} {rights : Rights} (h : d.node? other = some (.folder rights)) :
    (d.set place node).node? other = some (.folder rights) := by
  have hne : place ≠ other := by
    rintro rfl
    exact hplace rights h
  have hfound : (d.set place node).nodes.find? (fun e => e.1 == other) =
      d.nodes.find? fun e => e.1 == other := by
    rw [set, find?_put, if_neg hne]
  rw [node?] at h ⊢
  rw [hfound]
  split at h
  · exact h
  · split_ifs at h with hleads
    rwa [leadsOn_set hleads, if_pos rfl]

theorem search_eq_ok_iff {rights : Rights} :
    d.search place = .ok rights ↔ d.node? place = some (.folder rights) ∧ rights.search = true := by
  unfold search
  split
  · simp_all
  · simp_all
  · rename_i r h
    rw [h]
    cases hr : r.search <;> simp <;> rintro rfl <;> simp [hr]

section

variable (hplace : ∀ rights, d.node? place ≠ some (.folder rights))

include hplace

theorem search_set {other : Place} {rights : Rights} (h : d.search other = .ok rights) :
    (d.set place node).search other = .ok rights := by
  rw [search_eq_ok_iff] at h ⊢
  exact ⟨node?_set_of_folder hplace h.1, h.2⟩

/-- A step that can be taken can be taken afterwards. -/
theorem enter_set {other next : Place} {name : String} (h : d.enter other name = .ok next) :
    (d.set place node).enter other name = .ok next := by
  obtain ⟨rights, hsearch, hchild⟩ := exists_of_bind_eq_ok h
  rw [enter, search_set hplace hsearch]
  exact hchild

/-- A way through folders leads to the same place. -/
theorem foldlM_enter_set {names : List String} {start final : Place}
    (h : names.foldlM d.enter start = .ok final) :
    names.foldlM (d.set place node).enter start = .ok final := by
  induction names generalizing start with
  | nil => exact h
  | cons name names ih =>
    obtain ⟨next, hnext, hrest⟩ := exists_of_bind_eq_ok h
    rw [List.foldlM_cons, enter_set hplace hnext]
    exact ih hrest

end

/-- A file is set where there is no folder. -/
theorem set_of_writeAt {d' : Disk} {folder : Rights} {bytes : ByteArray}
    (h : d.writeAt folder place bytes = .ok d') :
    (∀ rights, d.node? place ≠ some (.folder rights)) ∧
      ∃ rights, d' = d.set place (.file rights bytes) := by
  unfold writeAt at h
  split at h
  · cases h
  · rename_i rights _ hnode
    split_ifs at h
    cases h
    exact ⟨by simp [hnode], rights, rfl⟩
  · rename_i hnode
    split_ifs at h
    cases h
    exact ⟨by simp [hnode], .ofNewFile, rfl⟩

/-- A path that can be written leads through folders to a name, and the file is set at its place. -/
theorem set_of_write {d' : Disk} {path : String} {bytes : ByteArray}
    (h : d.write path bytes = .ok d') :
    checkPath path = .ok () ∧ endsWithSlash path = false ∧
      ∃ before name folder place rights, names path = before ++ [name] ∧
        before.foldlM d.enter (d.origin path) = .ok folder ∧ d.enter folder name = .ok place ∧
        (∀ rights, d.node? place ≠ some (.folder rights)) ∧
        d' = d.set place (.file rights bytes) := by
  obtain ⟨⟨⟩, hcheck, h⟩ := exists_of_bind_eq_ok h
  split at h
  · cases h
  · rename_i name hname
    obtain ⟨folder, hfolder, h⟩ := exists_of_bind_eq_ok h
    obtain ⟨rights, hsearch, h⟩ := exists_of_bind_eq_ok h
    split_ifs at h with hslash
    obtain ⟨place, hplace, h⟩ := exists_of_bind_eq_ok h
    obtain ⟨hnode, fileRights, rfl⟩ := set_of_writeAt h
    have henter : d.enter folder name = .ok place := by
      rw [enter, hsearch]
      exact hplace
    exact ⟨hcheck, by simpa using hslash, _, name, folder, place, fileRights,
      (List.dropLast_append_getLast? name (Option.mem_def.mpr hname)).symm, hfolder, henter, hnode, rfl⟩

/-- A path leads to the file at the end of its way. -/
theorem find_of_file {path : String} {rights : Rights} {bytes : ByteArray}
    (hcheck : checkPath path = .ok ()) (hslash : endsWithSlash path = false)
    (hway : (names path).foldlM d.enter (d.origin path) = .ok place)
    (hnode : d.node? place = some (.file rights bytes)) : d.find path = .ok (.file rights bytes) := by
  simp only [find, hcheck, hway, bind, Except.bind, hnode, hslash, Bool.false_eq_true, if_false]

theorem content?_of_write {d' : Disk} {path : String} {bytes : ByteArray}
    (h : d.write path bytes = .ok d') : d'.content? path = some bytes := by
  obtain ⟨hcheck, hslash, before, name, folder, place, rights, hnames, hfolder, henter, hnode, rfl⟩ :=
    set_of_write h
  have hway : (names path).foldlM (d.set place (.file rights bytes)).enter (d.origin path) =
      .ok place := by
    rw [hnames, List.foldlM_append, foldlM_enter_set hnode hfolder]
    simp only [List.foldlM_cons, List.foldlM_nil, enter_set hnode henter, bind, Except.bind]
    rfl
  rw [content?, find_of_file hcheck hslash hway node?_set_self]

theorem content?_of_read {path : String} {bytes : ByteArray} (h : d.read path = .ok bytes) :
    d.content? path = some bytes := by
  obtain ⟨node, hfind, h⟩ := exists_of_bind_eq_ok h
  cases node with
  | folder rights => cases h
  | file rights content =>
    simp only at h
    split_ifs at h
    cases h
    rw [content?, hfind]

instance : LawfulFileSystem Disk := ⟨content?_of_read, content?_of_write⟩

/-- The working folder of a disk that was made for a folder is that folder. -/
theorem workingFolder_disk (f : Folder) : f.disk.workingFolder = f := by
  simp [Folder.disk, workingFolder, List.filterMap_map]

end GoShape.Command.Disk
