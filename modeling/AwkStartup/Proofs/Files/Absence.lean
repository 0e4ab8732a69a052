import AwkStartup.Files
import Mathlib.Tactic

/-!
# Trees that differ in one place

Reading a path looks only at the places that it crosses. Where something is taken out of a tree,
with all that is below it, the paths that do not cross it lead to the same as before, and the paths
that lead to it lead nowhere.
-/

namespace AwkStartup
namespace Files

def descend (location : List String) (name : String) : List String :=
  if name = "" ∨ name = "." then location
  else if name = ".." then location.dropLast
  else location ++ [name]

theorem locate_eq_foldl (working : List String) (path : String) :
    locate working path = (pathComponents path).foldl descend (origin working path) := rfl

/-- A path crosses a location when some first components of it lead there or below. -/
def Crosses (working : List String) (path : String) (location : List String) : Prop :=
  ∃ before after, pathComponents path = before ++ after ∧
    location <+: before.foldl descend (origin working path)

instance (working : List String) (path : String) (location : List String) :
    Decidable (Crosses working path location) :=
  decidable_of_iff
    (∃ before ∈ (pathComponents path).inits,
      location <+: before.foldl descend (origin working path)) (by
    simp only [List.mem_inits, List.IsPrefix, Crosses]
    constructor
    · rintro ⟨before, ⟨after, hpath⟩, hlocation⟩
      exact ⟨before, after, hpath.symm, hlocation⟩
    · rintro ⟨before, after, hpath, hlocation⟩
      exact ⟨before, ⟨after, hpath.symm⟩, hlocation⟩)

/-- The same tree without what stands at a location and below. -/
structure IsWithout (files : Files) (location : List String) (other : Files) : Prop where
  working : other.working = files.working
  gone : ∀ path, location <+: path → other.node? path = none
  kept : ∀ path, ¬location <+: path → other.node? path = files.node? path

section Walking

variable {files other : Files} {location : List String}

/-- Walking on from a directory goes where the next component leads, unless its name is too long. -/
theorem walk_cons (files : Files) (location : List String) (name : String) (names : List String) :
    files.walk location (name :: names) =
      match files.node? location with
      | none => .error .notFound
      | some (.file _) | some (.unreadable _) => .error .notADirectory
      | some .directory =>
        if name ≠ "" ∧ name ≠ "." ∧ name ≠ ".." ∧ 255 < (Text.bytes name).length then
          .error .nameTooLong
        else files.walk (descend location name) names := by
  rw [walk]
  cases files.node? location with
  | none => rfl
  | some node =>
    cases node with
    | file content => rfl
    | unreadable cause => rfl
    | directory =>
      unfold descend
      dsimp only
      split_ifs <;> tauto

theorem walk_congr {names : List String}
    (h : ∀ before after, names = before ++ after →
      other.node? (before.foldl descend location) = files.node? (before.foldl descend location)) :
    other.walk location names = files.walk location names := by
  have hhere := h [] names rfl
  rw [List.foldl_nil] at hhere
  induction names generalizing location with
  | nil => rw [walk, walk, hhere]
  | cons name names ih =>
    have hlater : ∀ before after, names = before ++ after →
        other.node? (before.foldl descend (descend location name)) =
          files.node? (before.foldl descend (descend location name)) := by
      intro before after hnames
      exact h (name :: before) after (by rw [hnames, List.cons_append])
    rw [walk_cons, walk_cons, hhere, ih hlater (hlater [] names rfl)]

theorem node?_of_walk {names : List String} {node : Node}
    (h : files.walk location names = .ok node) :
    files.node? (names.foldl descend location) = some node := by
  induction names generalizing location with
  | nil =>
    rw [walk] at h
    split at h
    · rename_i hnode
      rw [List.foldl_nil, hnode, Except.ok.inj h]
    · cases h
  | cons name names ih =>
    rw [walk_cons] at h
    split at h
    · cases h
    · cases h
    · cases h
    · split_ifs at h
      exact ih h

theorem node?_of_resolve {path : String} {node : Node} (h : files.resolve path = .ok node) :
    files.node? (locate files.working path) = some node := by
  unfold resolve at h
  split_ifs at h
  rw [locate_eq_foldl]
  exact node?_of_walk h

end Walking

section Removal

variable {files other : Files} {location : List String} {path : String}

theorem IsWithout.resolve_eq (h : files.IsWithout location other)
    (hpath : ¬Crosses files.working path location) : other.resolve path = files.resolve path := by
  have hwalk : other.walk (origin files.working path) (pathComponents path) =
      files.walk (origin files.working path) (pathComponents path) := by
    apply walk_congr
    intro before after hbefore
    exact h.kept _ fun hcrosses => hpath ⟨before, after, hbefore, hcrosses⟩
  rw [resolve, resolve, h.working, hwalk]

theorem IsWithout.readText_eq (h : files.IsWithout location other)
    (hpath : ¬Crosses files.working path location) : other.readText path = files.readText path := by
  rw [readText, readText, h.resolve_eq hpath]

theorem IsWithout.contains_eq_false (h : files.IsWithout location other)
    (hpath : location <+: locate files.working path) : other.contains path = false := by
  rw [contains]
  split
  · rename_i node hresolve
    have hnode := node?_of_resolve hresolve
    rw [h.working, h.gone _ hpath] at hnode
    cases hnode
  · rfl

end Removal

/-- A tree without what stands at a location and below. The directory that it stood in stays. -/
def without (files : Files) (location : List String) : Files :=
  { files with
    nodes := (files.nodes.filter fun node => ¬location <+: node.1) ++
      [(location.dropLast, .directory)] }

section Without

variable {files : Files} {location path : List String}

/-- Whether the working directory or a node stands at a location or below. -/
def Stands (files : Files) (path : List String) : Prop :=
  path <+: files.working ∨ ∃ node ∈ files.nodes, path <+: node.1

theorem stands_iff :
    (path.isPrefixOf files.working = true ∨
        (files.nodes.any fun node => path.isPrefixOf node.1) = true) ↔ files.Stands path := by
  rw [List.isPrefixOf_iff_prefix, List.any_eq_true, Stands]
  simp only [List.isPrefixOf_iff_prefix]

theorem node?_of_lookup {node : Node} (h : files.nodes.lookup path = some node) :
    files.node? path = some node := by
  rw [node?, h]

theorem node?_of_stands (h : files.nodes.lookup path = none) (hstands : files.Stands path) :
    files.node? path = some .directory := by
  rw [node?, h]
  exact if_pos (stands_iff.mpr hstands)

theorem node?_of_not_stands (h : files.nodes.lookup path = none) (hstands : ¬files.Stands path) :
    files.node? path = none := by
  rw [node?, h]
  exact if_neg (mt stands_iff.mp hstands)

theorem mem_of_lookup {node : Node} (h : files.nodes.lookup path = some node) :
    (path, node) ∈ files.nodes := by
  obtain ⟨before, after, hnodes, -⟩ := List.lookup_eq_some_iff.mp h
  rw [hnodes]
  exact List.mem_append_right _ List.mem_cons_self

theorem stands_of_node? (h : (files.node? path).isSome = true) : files.Stands path := by
  cases hlookup : files.nodes.lookup path with
  | some node => exact Or.inr ⟨(path, node), mem_of_lookup hlookup, List.prefix_rfl⟩
  | none =>
    by_contra hstands
    rw [node?_of_not_stands hlookup hstands] at h
    cases h

theorem Stands.above (h : files.Stands location) (hpath : path <+: location) :
    files.Stands path := by
  rcases h with hworking | ⟨node, hnode, hlocation⟩
  · exact Or.inl (hpath.trans hworking)
  · exact Or.inr ⟨node, hnode, hpath.trans hlocation⟩

theorem lookup_filter (nodes : List (List String × Node)) (location path : List String) :
    (nodes.filter fun node => ¬location <+: node.1).lookup path =
      if location <+: path then none else nodes.lookup path := by
  induction nodes with
  | nil => simp
  | cons node nodes ih =>
    obtain ⟨key, node⟩ := node
    by_cases hkey : location <+: key
    · rw [List.filter_cons_of_neg (by simpa using hkey), ih, List.lookup_cons]
      split_ifs with hpath
      · rfl
      · have hne : path ≠ key := fun h => hpath (h ▸ hkey)
        rw [beq_eq_false_iff_ne.mpr hne]
    · rw [List.filter_cons_of_pos (by simpa using hkey), List.lookup_cons, ih, List.lookup_cons]
      by_cases hpath : path = key
      · rw [hpath, if_neg hkey, if_neg hkey]
      · rw [beq_eq_false_iff_ne.mpr hpath]

theorem stands_without {parent : List String} {name : String}
    (hworking : ¬parent ++ [name] <+: files.working) :
    (files.without (parent ++ [name])).Stands path ↔
      ¬parent ++ [name] <+: path ∧ (files.Stands path ∨ path <+: parent) := by
  have hlength : ¬parent ++ [name] <+: parent := by
    intro h
    simpa using h.length_le
  constructor
  · rintro (hpath | ⟨node, hmem, hpath⟩)
    · exact ⟨fun h => hworking (h.trans hpath), Or.inl (Or.inl hpath)⟩
    · rcases List.mem_append.mp hmem with hmem | hmem
      · obtain ⟨hnode, hkept⟩ := List.mem_filter.mp hmem
        have hkept : ¬parent ++ [name] <+: node.1 := by simpa using hkept
        exact ⟨fun h => hkept (h.trans hpath), Or.inl (Or.inr ⟨node, hnode, hpath⟩)⟩
      · rw [List.mem_singleton.mp hmem, List.dropLast_concat] at hpath
        exact ⟨fun h => hlength (h.trans hpath), Or.inr hpath⟩
  · have hadded : (parent, Node.directory) ∈ (files.without (parent ++ [name])).nodes := by
      simp [without]
    rintro ⟨hout, (hpath | ⟨node, hmem, hpath⟩) | hpath⟩
    · exact Or.inl hpath
    · by_cases hnode : parent ++ [name] <+: node.1
      · -- The node is taken out, and the path leads to it through the directory that stays.
        have hshort : path <+: parent ++ [name] :=
          (List.prefix_or_prefix_of_prefix hpath hnode).resolve_right hout
        rcases List.prefix_concat_iff.mp hshort with rfl | hshort
        · exact absurd List.prefix_rfl hout
        · exact Or.inr ⟨_, hadded, hshort⟩
      · have hkept : node ∈ (files.without (parent ++ [name])).nodes :=
          List.mem_append_left _ (List.mem_filter.mpr ⟨hmem, by simpa using hnode⟩)
        exact Or.inr ⟨node, hkept, hpath⟩
    · exact Or.inr ⟨_, hadded, hpath⟩

/-- Apart from a location that something stands at, and that does not hold the working directory,
the tree without it is the same. -/
theorem isWithout_without {parent : List String} {name : String}
    (hnode : (files.node? (parent ++ [name])).isSome = true)
    (hworking : ¬parent ++ [name] <+: files.working) :
    files.IsWithout (parent ++ [name]) (files.without (parent ++ [name])) := by
  have hstands (path : List String) (hpath : path <+: parent) : files.Stands path :=
    (stands_of_node? hnode).above (hpath.trans (List.prefix_append _ _))
  have hlookup (path : List String) : (files.without (parent ++ [name])).nodes.lookup path =
      (if parent ++ [name] <+: path then none else files.nodes.lookup path).or
        (if path = parent then some .directory else none) := by
    simp only [without, List.lookup_append, lookup_filter, List.dropLast_concat, List.lookup_cons,
      List.lookup_nil]
    by_cases hpath : path = parent
    · simp [hpath]
    · simp [hpath, beq_eq_false_iff_ne.mpr hpath]
  constructor
  · rfl
  · intro path hpath
    have hne : path ≠ parent := by
      rintro rfl
      simpa using hpath.length_le
    apply node?_of_not_stands
    · rw [hlookup, if_pos hpath, if_neg hne]
      rfl
    · rw [stands_without hworking]
      exact fun h => h.1 hpath
  · intro path hpath
    have hhere := hlookup path
    rw [if_neg hpath] at hhere
    cases hnode : files.nodes.lookup path with
    | some node =>
      rw [hnode, Option.some_or] at hhere
      rw [node?_of_lookup hhere, node?_of_lookup hnode]
    | none =>
      rw [hnode, Option.none_or] at hhere
      by_cases hparent : path = parent
      · rw [if_pos hparent] at hhere
        rw [node?_of_lookup hhere, node?_of_stands hnode (hstands path (hparent ▸ List.prefix_rfl))]
      · rw [if_neg hparent] at hhere
        by_cases hsome : files.Stands path
        · rw [node?_of_stands hnode hsome,
            node?_of_stands hhere ((stands_without hworking).mpr ⟨hpath, Or.inl hsome⟩)]
        · have hnone : ¬(files.without (parent ++ [name])).Stands path := by
            rw [stands_without hworking]
            rintro ⟨-, h | h⟩
            · exact hsome h
            · exact hsome (hstands path h)
          rw [node?_of_not_stands hnode hsome, node?_of_not_stands hhere hnone]

end Without

end Files
end AwkStartup
