import EventWrap.Code.Tree
import Mathlib.Data.List.Nodup
import Mathlib.Data.List.Perm.Basic

/-!
# Classes grouped by namespace

The classes of a unit are added one after the other, each to a namespace or to none. However the
namespaces take turns, the unit has one block for each, in the order in which they were first used,
and a block has the classes of its namespace in the order in which they were added. So no class is
lost, repeated or put elsewhere.
-/

namespace EventWrap.Code

/-! ## Additions -/

/-- The name of a namespace, empty for none, and a class that is added to it. -/
abbrev Addition := String × ClassBlock

/-- The classes that are added to a namespace, in order. -/
def addedTo (additions : List Addition) (name : String) : List ClassBlock :=
  (additions.filter fun a => a.1 = name).map (·.2)

/-- The number of additions before the first one to a namespace. -/
def firstUse (additions : List Addition) (name : String) : Nat :=
  (additions.map (·.1)).idxOf name

variable {additions : List Addition} {name other : String}

theorem addedTo_concat_self (additions : List Addition) (name : String) (c : ClassBlock) :
    addedTo (additions ++ [(name, c)]) name = addedTo additions name ++ [c] := by
  simp [addedTo]

theorem addedTo_concat_of_ne (h : name ≠ other) (additions : List Addition) (c : ClassBlock) :
    addedTo (additions ++ [(name, c)]) other = addedTo additions other := by
  simp [addedTo, h]

theorem addedTo_eq_nil_iff : addedTo additions name = [] ↔ name ∉ additions.map (·.1) := by
  simp only [addedTo, List.map_eq_nil_iff, List.filter_eq_nil_iff, decide_eq_true_eq, List.mem_map,
    not_exists, not_and]

theorem mem_names_concat (additions : List Addition) (name : String) (c : ClassBlock) :
    other ∈ (additions ++ [(name, c)]).map (·.1) ↔ other ∈ additions.map (·.1) ∨ other = name := by
  rw [List.map_append, List.mem_append, List.map_singleton, List.mem_singleton]

/-- Later additions do not change where a namespace was first used. -/
theorem firstUse_concat (h : name ∈ additions.map (·.1)) (a : Addition) :
    firstUse (additions ++ [a]) name = firstUse additions name := by
  rw [firstUse, List.map_append, List.idxOf_append_of_mem h, firstUse]

/-- A namespace that is new is first used after all others. -/
theorem firstUse_lt_of_new (hnew : name ∉ additions.map (·.1))
    (hother : other ∈ additions.map (·.1)) (c : ClassBlock) :
    firstUse (additions ++ [(name, c)]) other < firstUse (additions ++ [(name, c)]) name := by
  have hlast : firstUse (additions ++ [(name, c)]) name = (additions.map (·.1)).length := by
    rw [firstUse, List.map_append, List.idxOf_append_of_notMem hnew, List.map_singleton,
      List.idxOf_cons_self, Nat.add_zero]
  rw [hlast, firstUse_concat hother]
  exact List.idxOf_lt_length_of_mem hother

namespace SourceUnit

variable {blocks : List NamespaceBlock}

/-! ## One class -/

theorem addToNamespace_of_not_mem (h : name ∉ blocks.map (·.name)) (c : ClassBlock) :
    addToNamespace name c blocks = blocks ++ [⟨name, [c]⟩] := by
  induction blocks with
  | nil => rfl
  | cons block rest ih =>
    rw [List.map_cons, List.mem_cons, not_or] at h
    rw [addToNamespace_cons, if_neg (Ne.symm h.1), ih h.2, List.cons_append]

/-- Where blocks have distinct names, a class changes the block of its namespace and no other. -/
theorem addToNamespace_of_mem (hdistinct : (blocks.map (·.name)).Nodup)
    (h : name ∈ blocks.map (·.name)) (c : ClassBlock) :
    addToNamespace name c blocks = blocks.map fun block =>
      if block.name = name then { block with classes := block.classes ++ [c] } else block := by
  induction blocks with
  | nil => exact absurd h List.not_mem_nil
  | cons block rest ih =>
    rw [List.map_cons, List.nodup_cons] at hdistinct
    rw [addToNamespace_cons, List.map_cons]
    by_cases hname : block.name = name
    · -- the search ends here, and no later block would have been changed by the map
      have hrest : ∀ n ∈ rest, n.name ≠ name := by
        rintro n hn rfl
        exact hdistinct.1 (hname ▸ List.mem_map_of_mem hn)
      rw [if_pos hname, if_pos hname, List.map_congr_left fun n hn => if_neg (hrest n hn),
        List.map_id']
    · have hmem := (List.mem_cons.1 h).resolve_left (Ne.symm hname)
      rw [if_neg hname, if_neg hname, ih hdistinct.2 hmem]

theorem flatMap_addToNamespace_perm (name : String) (c : ClassBlock)
    (blocks : List NamespaceBlock) :
    ((addToNamespace name c blocks).flatMap (·.classes)).Perm
      (c :: blocks.flatMap (·.classes)) := by
  induction blocks with
  | nil => exact .refl [c]
  | cons block rest ih =>
    rw [addToNamespace_cons]
    split
    · rw [List.flatMap_cons, List.flatMap_cons, List.append_assoc]
      exact List.perm_middle
    · rw [List.flatMap_cons, List.flatMap_cons]
      exact (ih.append_left block.classes).trans List.perm_middle

/-- A unit has one class more when a class was added, in whichever namespace. -/
theorem classes_addClass_perm (u : SourceUnit) (name : String) (c : ClassBlock) :
    (u.addClass name c).classes.Perm (c :: u.classes) := by
  rw [addClass]
  split
  · rw [classes, classes, ← List.append_assoc]
    exact List.perm_append_singleton c _
  · exact (flatMap_addToNamespace_perm name c u.namespaces).append_right u.globals

/-! ## Groups -/

/-- A unit has what was added to it, grouped: one block for each namespace that was used, in the
order of their first uses, and the classes of every group in order. -/
structure Groups (u : SourceUnit) (additions : List Addition) : Prop where
  used : ∀ name, name ∈ u.namespaces.map (·.name) ↔ name ≠ "" ∧ name ∈ additions.map (·.1)
  ordered : (u.namespaces.map (·.name)).Pairwise fun m n =>
    firstUse additions m < firstUse additions n
  grouped : ∀ block ∈ u.namespaces, block.classes = addedTo additions block.name
  others : u.globals = addedTo additions ""

namespace Groups

variable {u : SourceUnit}

theorem nodup_names (h : u.Groups additions) : (u.namespaces.map (·.name)).Nodup :=
  h.ordered.imp fun hlt => ne_of_apply_ne _ (Nat.ne_of_lt hlt)

theorem mem_of_mem_names (h : u.Groups additions) (hname : name ∈ u.namespaces.map (·.name)) :
    name ∈ additions.map (·.1) := ((h.used name).1 hname).2

/-- Namespaces that were used stay in their order. -/
theorem ordered_concat (h : u.Groups additions) (a : Addition) :
    (u.namespaces.map (·.name)).Pairwise fun m n =>
      firstUse (additions ++ [a]) m < firstUse (additions ++ [a]) n := by
  refine h.ordered.imp_of_mem ?_
  intro m n hm hn hlt
  rwa [firstUse_concat (h.mem_of_mem_names hm), firstUse_concat (h.mem_of_mem_names hn)]

theorem classes_eq (h : u.Groups additions) : u.classes =
    (u.namespaces.map (·.name)).flatMap (addedTo additions) ++ addedTo additions "" := by
  calc u.classes = u.namespaces.flatMap (·.classes) ++ u.globals := rfl
    _ = u.namespaces.flatMap (fun block => addedTo additions block.name) ++
        addedTo additions "" := by rw [List.flatMap_congr h.grouped, h.others]
    _ = _ := by rw [List.flatMap_map]

theorem add_global (h : u.Groups additions) (c : ClassBlock) :
    ({ u with globals := u.globals ++ [c] } : SourceUnit).Groups (additions ++ [("", c)]) where
  used name := by
    rw [h.used, mem_names_concat]
    exact and_congr_right fun hname => (or_iff_left hname).symm
  ordered := h.ordered_concat ("", c)
  grouped block hblock := by
    have hname := ((h.used block.name).1 (List.mem_map_of_mem hblock)).1
    rw [addedTo_concat_of_ne hname.symm, h.grouped block hblock]
  others := by rw [addedTo_concat_self, h.others]

theorem add_to_used (h : u.Groups additions) (hused : name ∈ u.namespaces.map (·.name))
    (c : ClassBlock) :
    ({ u with namespaces := addToNamespace name c u.namespaces } : SourceUnit).Groups
      (additions ++ [(name, c)]) := by
  have hnames : (addToNamespace name c u.namespaces).map (·.name) = u.namespaces.map (·.name) := by
    rw [addToNamespace_of_mem h.nodup_names hused, List.map_map]
    refine List.map_congr_left fun block _ => ?_
    rw [Function.comp_apply]
    split <;> rfl
  -- the block is found by a name that was used, so that the order of the names is as before
  obtain ⟨hname, hadded⟩ := (h.used name).1 hused
  refine ⟨fun m => ?_, ?_, ?_, ?_⟩
  · rw [hnames, h.used, mem_names_concat]
    exact and_congr_right fun _ => (or_iff_left_of_imp fun heq => heq ▸ hadded).symm
  · rw [hnames]
    exact h.ordered_concat (name, c)
  · rw [addToNamespace_of_mem h.nodup_names hused]
    refine List.forall_mem_map.2 fun block hblock => ?_
    by_cases heq : block.name = name
    · rw [if_pos heq, heq, addedTo_concat_self, ← heq, h.grouped block hblock]
    · rw [if_neg heq, addedTo_concat_of_ne (Ne.symm heq), h.grouped block hblock]
  · rw [addedTo_concat_of_ne hname, h.others]

theorem add_to_new (h : u.Groups additions) (hname : name ≠ "")
    (hnew : name ∉ u.namespaces.map (·.name)) (c : ClassBlock) :
    ({ u with namespaces := addToNamespace name c u.namespaces } : SourceUnit).Groups
      (additions ++ [(name, c)]) := by
  have hunused : name ∉ additions.map (·.1) := fun hadded => hnew ((h.used name).2 ⟨hname, hadded⟩)
  refine ⟨fun m => ?_, ?_, ?_, ?_⟩
  · rw [addToNamespace_of_not_mem hnew, List.map_append, List.mem_append, List.map_singleton,
      List.mem_singleton, h.used, mem_names_concat, and_or_left]
    exact or_congr_right ⟨fun heq => ⟨heq ▸ hname, heq⟩, And.right⟩
  · rw [addToNamespace_of_not_mem hnew, List.map_append, List.map_singleton, List.pairwise_append]
    refine ⟨h.ordered_concat (name, c), List.pairwise_singleton _ _, fun m hm n hn => ?_⟩
    rw [List.mem_singleton.1 hn]
    exact firstUse_lt_of_new hunused (h.mem_of_mem_names hm) c
  · rw [addToNamespace_of_not_mem hnew]
    refine List.forall_mem_append.2 ⟨fun block hblock => ?_, List.forall_mem_singleton.2 ?_⟩
    · have hne : name ≠ block.name := fun heq => hnew (heq ▸ List.mem_map_of_mem hblock)
      rw [addedTo_concat_of_ne hne, h.grouped block hblock]
    · rw [addedTo_concat_self, addedTo_eq_nil_iff.2 hunused, List.nil_append]
  · rw [addedTo_concat_of_ne hname, h.others]

/-- One more class gets to the end of its group, which is a new one if there is none. -/
theorem addClass (h : u.Groups additions) (name : String) (c : ClassBlock) :
    (u.addClass name c).Groups (additions ++ [(name, c)]) := by
  rw [SourceUnit.addClass]
  split
  · next hempty =>
    rw [String.isEmpty_iff.1 hempty]
    exact h.add_global c
  · next hempty =>
    rw [String.isEmpty_iff] at hempty
    by_cases hused : name ∈ u.namespaces.map (·.name)
    · exact h.add_to_used hused c
    · exact h.add_to_new hempty hused c

end Groups

/-! ## Any classes -/

/-- Adds several classes, one after the other. -/
def addAll (additions : List Addition) (u : SourceUnit) : SourceUnit :=
  additions.foldl (fun u a => u.addClass a.1 a.2) u

/-- What is added to groups gets to the ends of them, in turn. -/
theorem Groups.addAll {u : SourceUnit} {earlier : List Addition} (h : u.Groups earlier)
    (additions : List Addition) : (u.addAll additions).Groups (earlier ++ additions) := by
  induction additions generalizing u earlier with
  | nil => rwa [List.append_nil]
  | cons a rest ih =>
    rw [List.append_cons]
    exact ih (h.addClass a.1 a.2)

theorem groups_nil (comments : List String) (nullable : Bool) :
    Groups { comments, nullable } [] :=
  ⟨by simp, .nil, nofun, rfl⟩

theorem classes_addAll_perm (additions : List Addition) (u : SourceUnit) :
    (u.addAll additions).classes.Perm (additions.map (·.2) ++ u.classes) := by
  induction additions generalizing u with
  | nil => exact .refl _
  | cons a rest ih =>
    calc (u.addAll (a :: rest)).classes.Perm (rest.map (·.2) ++ (u.addClass a.1 a.2).classes) :=
          ih (u.addClass a.1 a.2)
      List.Perm _ (rest.map (·.2) ++ a.2 :: u.classes) :=
          (classes_addClass_perm u a.1 a.2).append_left _
      List.Perm _ ((a :: rest).map (·.2) ++ u.classes) := List.perm_middle

/-- However classes are added to a unit without classes, it has one block for each namespace that
was used, in the order of the first uses, with the classes of the namespace in the order in which
they were added; those of no namespace are kept apart in the same way. The classes of the unit are
those of its namespaces, one namespace after the other, then those of none, and these are all that
were added, each as often as it was. -/
theorem classes_grouped (comments : List String) (nullable : Bool) (additions : List Addition) :
    let u := addAll additions { comments, nullable }
    let names := u.namespaces.map (·.name)
    names.Nodup ∧ (∀ name, name ∈ names ↔ name ≠ "" ∧ name ∈ additions.map (·.1)) ∧
      names.Pairwise (fun m n => firstUse additions m < firstUse additions n) ∧
      (∀ block ∈ u.namespaces,
        block.classes ≠ [] ∧ block.classes = addedTo additions block.name) ∧
      u.globals = addedTo additions "" ∧
      u.classes = names.flatMap (addedTo additions) ++ addedTo additions "" ∧
      u.classes.Perm (additions.map (·.2)) := by
  intro u names
  have h : u.Groups additions := (groups_nil comments nullable).addAll additions
  refine ⟨h.nodup_names, h.used, h.ordered, fun block hblock => ?_, h.others, h.classes_eq, ?_⟩
  · have hadded := h.mem_of_mem_names (List.mem_map_of_mem hblock)
    rw [h.grouped block hblock]
    exact ⟨fun hnil => addedTo_eq_nil_iff.1 hnil hadded, rfl⟩
  · calc u.classes.Perm (additions.map (·.2) ++ SourceUnit.classes { comments, nullable }) :=
          classes_addAll_perm additions _
      List.Perm _ (additions.map (·.2)) := .of_eq (List.append_nil _)

example (a b c d e : ClassBlock) :
    (addAll [("Sample", a), ("Other", b), ("", c), ("Sample", d), ("Other", e)] {}).classes =
      [a, d, b, e, c] := rfl

end SourceUnit

end EventWrap.Code
