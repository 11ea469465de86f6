import EventWrap.Files.Tree
import EventWrap.Proofs.Document.Resolving
import EventWrap.Proofs.Files.Path

/-!
# Files of one directory

File systems in which the files of a directory are kept apart by their names: what is written under
one name is read again, and stays when other files are written or directories are made. Trees of
files keep the files of every directory apart.
-/

namespace EventWrap

open Path

/-! ## Names of entries -/

/-- A name without slashes that does not lead to a directory that is there already. -/
structure Path.IsEntryName (name : String) : Prop where
  plain : '/' ∉ name.toList
  leads : staysPut name = false
  onward : name ≠ ".."

/-- A path leads to an entry of a directory, and not further. -/
def Path.IsChild (directory path : String) : Prop :=
  ∃ name, IsEntryName name ∧ path = join directory name ∧
    components path = lead directory ++ [name]

theorem Path.IsEntryName.isChild_join {name : String} (h : IsEntryName name) (directory : String) :
    IsChild directory (join directory name) :=
  ⟨name, h, rfl, components_join h.plain directory⟩

/-- The files of a directory are kept apart by the names of its entries. -/
structure FileSystem.KeepsApart {σ : Type} (fs : FileSystem σ) (directory : String) : Prop where
  written {name text state after} : IsEntryName name →
    fs.write (join directory name) text state = (.ok (), after) →
    fs.read (join directory name) after = .ok text
  others {name other text kept state after} : IsEntryName name → IsEntryName other →
    other ≠ name → fs.write (join directory name) text state = (.ok (), after) →
    fs.read (join directory other) state = .ok kept →
    fs.read (join directory other) after = .ok kept
  made {name kept path state} : IsEntryName name →
    fs.read (join directory name) state = .ok kept →
    fs.read (join directory name) (fs.ensureDirectory path state).2 = .ok kept

namespace FileSystem.KeepsApart

variable {σ : Type} {fs : FileSystem σ} {directory : String} (h : fs.KeepsApart directory)

include h

theorem read_ensureFirst {name kept : String} (hname : IsEntryName name) (paths : List String)
    {state : σ} (hread : fs.read (join directory name) state = .ok kept) :
    fs.read (join directory name) (fs.ensureFirst state paths).2 = .ok kept := by
  induction paths generalizing state with
  | nil => exact hread
  | cons path above ih =>
    have hfirst : fs.read (join directory name) (fs.ensureDirectory path state).2 = .ok kept :=
      h.made hname hread
    rw [ensureFirst]
    split
    · next missing heq =>
      rw [heq] at hfirst
      have habove := ih hfirst
      split
      · next heq' =>
        rw [heq'] at habove
        exact h.made hname habove
      · exact habove
    · exact hfirst

/-- Making directories leaves the texts of files. -/
theorem read_makeDirectories {name kept path : String} (hname : IsEntryName name) {state : σ}
    (hread : fs.read (join directory name) state = .ok kept) :
    fs.read (join directory name) (fs.makeDirectories path state).2 = .ok kept := by
  rw [makeDirectories]
  split
  · exact hread
  · exact h.read_ensureFirst hname _ hread

end FileSystem.KeepsApart

/-- Texts by path, with no directories. -/
def FileSystem.flat : FileSystem (List (String × String)) where
  read path files := match files.lookup path with
    | some text => .ok text
    | none => .error .notFound
  ensureDirectory _ files := (.ok (), files)
  write path text files := (.ok (), (path, text) :: files)

theorem FileSystem.keepsApart_flat (directory : String) : flat.KeepsApart directory where
  written _ hwrite := by
    cases hwrite
    simp [flat]
  others {name other text kept state after} hname hother hne hwrite hread := by
    cases hwrite
    have hpaths : join directory other ≠ join directory name := fun heq =>
      hne (join_inj hother.plain hname.plain heq)
    simp only [flat, List.lookup_cons, beq_eq_false_iff_ne.2 hpaths]
    exact hread
  made _ hread := hread

/-! ## Trees -/

namespace FileTree

/-- A tree with the directories of another one, and perhaps more. -/
structure Deepens (t t' : FileTree) : Prop where
  home : t'.home = t.home
  directories {path : List String} : t.isDirectory path → t'.isDirectory path

theorem deepens_setFile (t : FileTree) (path : List String) (text : String) :
    t.Deepens (t.setFile path text) := ⟨rfl, id⟩

theorem deepens_addDirectory (t : FileTree) (path : List String) :
    t.Deepens (t.addDirectory path) := by
  rw [addDirectory]
  split
  · exact ⟨rfl, id⟩
  · refine ⟨rfl, fun hdirectory => ?_⟩
    rw [isDirectory, Bool.or_eq_true] at hdirectory ⊢
    refine hdirectory.imp_right fun hmem => ?_
    rw [List.contains_iff_mem] at hmem ⊢
    exact List.mem_append_left _ hmem

namespace Deepens

variable {t t' : FileTree} (h : t.Deepens t')

include h

/-- Where a component leads in a tree, it leads in a deeper one. -/
theorem enter {here there : List String} {name : String} (hent : t.enter here name = .ok there) :
    t'.enter here name = .ok there := by
  unfold FileTree.enter at hent ⊢
  split
  · next hstays => rwa [if_pos hstays] at hent
  · next hstays =>
    rw [if_neg hstays] at hent
    split
    · next hback => rwa [if_pos hback] at hent
    · next hback =>
      rw [if_neg hback] at hent
      split
      · next hlong =>
        rw [if_pos hlong] at hent
        cases hent
      · next hlong =>
        rw [if_neg hlong] at hent
        by_cases hdirectory : t.isDirectory (here ++ [name])
        · rw [if_pos hdirectory] at hent
          rwa [if_pos (h.directories hdirectory)]
        · rw [if_neg hdirectory] at hent
          split at hent <;> cases hent

theorem walk {here there parts : List String} (hwalk : t.walk here parts = .ok there) :
    t'.walk here parts = .ok there := by
  induction parts generalizing here with
  | nil => exact hwalk
  | cons name rest ih =>
    rw [FileTree.walk] at hwalk ⊢
    obtain ⟨next, hent, hrest⟩ := bind_eq_ok_iff.1 hwalk
    exact bind_eq_ok_iff.2 ⟨next, h.enter hent, ih hrest⟩

end Deepens

/-- Components that end in the name of an entry lead to this entry of what those before lead to. -/
theorem spot_entry {t : FileTree} {here lead : List String} {name : String}
    (hname : IsEntryName name) {spot : Spot} :
    t.spot here (lead ++ [name]) = .ok spot ↔
      ∃ above, t.walk here lead = .ok above ∧ name.utf8ByteSize ≤ nameLimit ∧
        spot = .entry (above ++ [name]) := by
  have hleads : ¬(staysPut name || name = "..") = true := by
    simp [hname.leads, hname.onward]
  rw [FileTree.spot, List.getLast?_concat]
  simp only [List.dropLast_concat, bind_eq_ok_iff, if_neg hleads]
  refine exists_congr fun above => and_congr_right fun _ => ?_
  by_cases hlong : nameLimit < name.utf8ByteSize
  · rw [if_pos hlong]
    exact ⟨nofun, fun h => absurd h.1 (Nat.not_le.2 hlong)⟩
  · rw [if_neg hlong]
    exact ⟨fun h => ⟨Nat.le_of_not_lt hlong, (Except.ok.inj h).symm⟩, fun h => congrArg _ h.2.symm⟩

/-! ### Entries of a directory -/

variable {t t' : FileTree} {directory name other : String}

/-- The path of an entry of a directory in the tree, where the directory can be reached. -/
structure Leads (t : FileTree) (directory name : String) (above : List String) : Prop where
  within : (join directory name).utf8ByteSize ≤ limit
  walk : t.walk (t.origin (join directory name)) (lead directory) = .ok above
  short : name.utf8ByteSize ≤ nameLimit

theorem Leads.deepen {above : List String} (h : t.Leads directory name above)
    (ht : t.Deepens t') : t'.Leads directory name above := by
  refine ⟨h.within, ?_, h.short⟩
  have horigin : t'.origin (join directory name) = t.origin (join directory name) := by
    rw [origin, origin, ht.home]
  rw [horigin]
  exact ht.walk h.walk

theorem read_eq_ok_iff (hname : IsEntryName name) {text : String} :
    t.read (join directory name) = .ok text ↔
      ∃ above, t.Leads directory name above ∧ t.file? (above ++ [name]) = some text := by
  rw [read]
  by_cases hlong : limit < (join directory name).utf8ByteSize
  · rw [if_pos hlong]
    exact ⟨nofun, fun ⟨_, hleads, _⟩ => absurd hleads.within (Nat.not_le.2 hlong)⟩
  · rw [if_neg hlong, components_join hname.plain, bind_eq_ok_iff]
    constructor
    · rintro ⟨spot, hspot, hread⟩
      obtain ⟨above, hwalk, hshort, rfl⟩ := (spot_entry hname).1 hspot
      refine ⟨above, ⟨Nat.le_of_not_lt hlong, hwalk, hshort⟩, ?_⟩
      cases hfile : t.file? (above ++ [name]) with
      | some kept =>
        simp only [hfile] at hread
        cases hread
        rfl
      | none =>
        simp only [hfile] at hread
        split at hread <;> cases hread
    · rintro ⟨above, hleads, hfile⟩
      refine ⟨_, (spot_entry hname).2 ⟨above, hleads.walk, hleads.short, rfl⟩, ?_⟩
      simp only [hfile]
      rfl

theorem write_eq_ok_iff (hname : IsEntryName name) {text : String} :
    write (join directory name) text t = (.ok (), t') ↔
      ∃ above, t.Leads directory name above ∧ t.isDirectory (above ++ [name]) = false ∧
        t' = t.setFile (above ++ [name]) text := by
  rw [write]
  by_cases hlong : limit < (join directory name).utf8ByteSize
  · rw [if_pos hlong]
    exact ⟨nofun, fun ⟨_, hleads, _⟩ => absurd hleads.within (Nat.not_le.2 hlong)⟩
  · rw [if_neg hlong, components_join hname.plain]
    constructor
    · intro hwrite
      cases hspot : t.spot (t.origin (join directory name)) (lead directory ++ [name]) with
      | error fault =>
        rw [hspot] at hwrite
        cases hwrite
      | ok spot =>
        obtain ⟨above, hwalk, hshort, rfl⟩ := (spot_entry hname).1 hspot
        simp only [hspot] at hwrite
        cases hdirectory : t.isDirectory (above ++ [name]) with
        | true =>
          rw [hdirectory, if_pos rfl] at hwrite
          cases hwrite
        | false =>
          rw [hdirectory, if_neg Bool.false_ne_true] at hwrite
          cases hwrite
          exact ⟨above, ⟨Nat.le_of_not_lt hlong, hwalk, hshort⟩, hdirectory, rfl⟩
    · rintro ⟨above, hleads, hdirectory, rfl⟩
      rw [(spot_entry hname).2 ⟨above, hleads.walk, hleads.short, rfl⟩]
      simp only [hdirectory, Bool.false_eq_true, if_false]

theorem file?_setFile_self (t : FileTree) (path : List String) (text : String) :
    (t.setFile path text).file? path = some text := by
  have hgone : (t.files.filter (·.1 ≠ path)).lookup path = none := by
    rw [List.lookup_eq_none_iff]
    intro entry hentry
    exact bne_iff_ne.2 (Ne.symm (by simpa using (List.mem_filter.1 hentry).2))
  rw [file?, setFile, List.lookup_append, hgone]
  simp

theorem file?_setFile_of_ne (t : FileTree) {path path' : List String} (text : String)
    (h : path' ≠ path) : (t.setFile path text).file? path' = t.file? path' := by
  have hkept : ∀ files : List (List String × String),
      (files.filter (·.1 ≠ path)).lookup path' = files.lookup path' := by
    intro files
    induction files with
    | nil => rfl
    | cons entry rest ih =>
      by_cases hentry : entry.1 = path
      · rw [List.filter_cons_of_neg (by simpa using hentry), ih, List.lookup_cons, hentry,
          beq_eq_false_iff_ne.2 h]
      · rw [List.filter_cons_of_pos (by simpa using hentry), List.lookup_cons, List.lookup_cons, ih]
  rw [file?, setFile, List.lookup_append, hkept, file?]
  simp [List.lookup_cons, beq_eq_false_iff_ne.2 h]

theorem eq_addDirectory_of_makeDirectory {here parts : List String}
    (hmake : t.makeDirectory here parts = .ok t') : ∃ path, t' = t.addDirectory path := by
  rw [makeDirectory, bind_eq_ok_iff] at hmake
  obtain ⟨spot, -, hmake⟩ := hmake
  cases spot with
  | directory => cases hmake
  | entry path =>
    simp only at hmake
    split at hmake
    · cases hmake
    · cases hmake
      exact ⟨path, rfl⟩

/-- Making a directory adds a directory at most, and leaves the files of a tree. -/
theorem ensureDirectory_leaves (path : String) (t : FileTree) :
    t.Deepens (ensureDirectory path t).2 ∧ (ensureDirectory path t).2.files = t.files := by
  have hsame : t.Deepens t ∧ t.files = t.files := ⟨⟨rfl, id⟩, rfl⟩
  rw [ensureDirectory]
  split
  · exact hsame
  · split
    · next hmake =>
      obtain ⟨made, rfl⟩ := eq_addDirectory_of_makeDirectory hmake
      refine ⟨deepens_addDirectory t made, ?_⟩
      rw [addDirectory]
      split <;> rfl
    · split <;> exact hsame
    · exact hsame

/-- Trees of files keep the files of every directory apart. -/
theorem keepsApart_system (directory : String) : system.KeepsApart directory where
  written hname hwrite := by
    obtain ⟨above, hleads, -, rfl⟩ := (write_eq_ok_iff hname).1 hwrite
    exact (read_eq_ok_iff hname).2 ⟨above, hleads.deepen (deepens_setFile _ _ _),
      file?_setFile_self _ _ _⟩
  others {name other _ _ _ _} hname hother hne hwrite hread := by
    obtain ⟨above, hleads, -, rfl⟩ := (write_eq_ok_iff hname).1 hwrite
    obtain ⟨above', hleads', hfile⟩ := (read_eq_ok_iff hother).1 hread
    have hpaths : above' ++ [other] ≠ above ++ [name] := fun heq =>
      hne (List.singleton_inj.1 (List.append_inj_right' heq rfl))
    refine (read_eq_ok_iff hother).2 ⟨above', hleads'.deepen (deepens_setFile _ _ _), ?_⟩
    rw [file?_setFile_of_ne _ _ hpaths, hfile]
  made {name kept path state} hname hread := by
    obtain ⟨above, hleads, hfile⟩ := (read_eq_ok_iff hname).1 hread
    obtain ⟨hdeepens, hfiles⟩ := ensureDirectory_leaves path state
    refine (read_eq_ok_iff hname).2 ⟨above, hleads.deepen hdeepens, ?_⟩
    rw [file?] at hfile ⊢
    rw [← hfile, ← hfiles]
    rfl

end FileTree

end EventWrap
