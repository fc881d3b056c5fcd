import Mathlib.Data.List.Nodup
import Mathlib.Data.List.Perm.Basic
import TaskFlow.FileSystem.Glob
import TaskFlow.Proofs.FileSystem.Basic

namespace TaskFlow

namespace Component

variable {a b : Component}

instance : Std.TransOrd Component :=
  inferInstanceAs (Std.TransCmp (compareLex (compareOn rank) (compareOn text)))

instance : Std.LawfulEqOrd Component where
  eq_of_compare := by
    intro a b same
    obtain ⟨rank, text⟩ := compareLex_eq_eq.mp same
    have rank := Std.LawfulEqOrd.eq_of_compare rank
    have text := Std.LawfulEqOrd.eq_of_compare text
    cases a <;> cases b <;> simp_all [Component.rank, Component.text]

def name? : Component → Option String
  | .root | .current => none
  | .parent => some ".."
  | .normal name => some name

theorem name?_ofName (name : String) :
    (ofName name).name? = if name = "." then none else some name := by
  unfold ofName
  split
  · rfl
  · split
    · next up => rw [up]; rfl
    · rfl

theorem ofName_ne_root (name : String) : ofName name ≠ .root := by
  unfold ofName
  split
  · nofun
  · split <;> nofun

end Component

namespace FileSystem

variable {fs fs' : FileSystem} {path path' : String} {loc : Location}

theorem isFile_iff : fs.isFile path = true ↔ ∃ content, fs.find path = .ok (.file content) := by
  rw [isFile]
  split
  · next content found => exact iff_of_true rfl ⟨content, found⟩
  · next other => exact iff_of_false Bool.false_ne_true fun ⟨content, found⟩ => other content found

/-- A file system with the same nodes, whose folders may list their names in another order. -/
structure Rearranged (fs fs' : FileSystem) : Prop where
  entries : fs'.entries.Perm fs.entries
  workingFolder : fs'.workingFolder = fs.workingFolder
  nodes : ∀ l, fs'.node? l = fs.node? l

theorem node?_eq_some_iff (nodup : (fs.entries.map (·.1)).Nodup) {n : Node}
    (inside : fs.isAround loc = false) : fs.node? loc = some n ↔ (loc, n) ∈ fs.entries := by
  rw [node?_of_not_around inside, Option.map_eq_some_iff]
  constructor
  · rintro ⟨⟨l, n⟩, found, rfl⟩
    obtain rfl : l = loc := by simpa using List.find?_some found
    exact List.mem_of_find?_eq_some found
  · intro mem
    cases found : fs.entries.find? (·.1 == loc) with
    | none => exact absurd (beq_self_eq_true loc) (List.find?_eq_none.mp found _ mem)
    | some e =>
      have same : e.1 = loc := by simpa using List.find?_some found
      have only : e = (loc, n) :=
        List.inj_on_of_nodup_map nodup (List.mem_of_find?_eq_some found) mem same
      exact ⟨e, rfl, congrArg Prod.snd only⟩

namespace Rearranged

theorem of_perm (nodup : (fs.entries.map (·.1)).Nodup) (h : fs'.entries.Perm fs.entries)
    (here : fs'.workingFolder = fs.workingFolder) : fs.Rearranged fs' where
  entries := h
  workingFolder := here
  nodes l := by
    have around : fs'.isAround l = fs.isAround l := by rw [isAround, isAround, here]
    cases inside : fs.isAround l with
    | true => rw [node?_of_around inside, node?_of_around (around.trans inside)]
    | false =>
      have nodup' : (fs'.entries.map (·.1)).Nodup := (h.map _).nodup_iff.mpr nodup
      ext n
      rw [node?_eq_some_iff nodup' (around.trans inside), node?_eq_some_iff nodup inside, h.mem_iff]

variable (h : fs.Rearranged fs')

include h

theorem walk (here : Location) (names : List String) : fs'.walk here names = fs.walk here names := by
  induction names generalizing here with
  | nil => rfl
  | cons name names ih => simp only [FileSystem.walk, h.nodes, ih]

theorem locate (path : String) : fs'.locate path = fs.locate path := by
  rw [FileSystem.locate, FileSystem.locate, origin, origin, h.workingFolder, h.walk]

theorem find (path : String) : fs'.find path = fs.find path := by
  simp only [FileSystem.find, resolve, h.locate, h.nodes]

theorem isFolder (path : String) : fs'.isFolder path = fs.isFolder path := by
  simp only [FileSystem.isFolder, h.find]

theorem children (folder : Location) : (fs'.children folder).Perm (fs.children folder) := by
  simp only [FileSystem.children, towardsWork, isAround, h.workingFolder]
  exact (h.entries.filterMap _).append_left _

theorem depth : fs'.depth = fs.depth := by
  rw [FileSystem.depth, FileSystem.depth, h.workingFolder]
  exact (h.entries.map _).foldl_eq _

end Rearranged

end FileSystem

namespace Glob.Search

open FileSystem

variable {s : Search} {fs' : FileSystem}

def moved (s : Search) (fs' : FileSystem) : Search := { s with tree := fs' }

theorem isFolder_moved (h : s.tree.Rearranged fs') (path : String) :
    (s.moved fs').tree.isFolder path = s.tree.isFolder path := h.isFolder path

theorem answer_moved (h : s.tree.Rearranged fs') (path : String) :
    (s.moved fs').answer path = s.answer path := by
  simp only [answer, isFolder_moved h]
  rfl

theorem inside_moved (h : s.tree.Rearranged fs') (path : String) :
    ((s.moved fs').inside path).Perm (s.inside path) := by
  have located : (s.moved fs').tree.locate path = s.tree.locate path := h.locate path
  rw [inside, inside, located]
  cases s.tree.locate path with
  | error e => exact .refl _
  | ok at_ => exact (h.children at_).map _

/-- Each part of a search finds the same paths, each as often, when folders are listed in another
order. -/
structure Moved (s : Search) (fs' : FileSystem) (fuel : Nat) (ps : List (List Token))
    (path : String) : Prop where
  below : ((s.moved fs').below fuel ps path).Perm (s.below fuel ps path)
  at_ : ((s.moved fs').at_ fuel ps path).Perm (s.at_ fuel ps path)
  named : ((s.moved fs').named fuel ps path).Perm (s.named fuel ps path)

section

variable {fuel : Nat} {p : List Token} {ps : List (List Token)} {path : String}
  (h : s.tree.Rearranged fs') (ih : ∀ ps path, s.Moved fs' fuel ps path)

include h ih

theorem onward_moved (path : String) :
    (if ps.isEmpty then (s.moved fs').answer path else (s.moved fs').below fuel ps path).Perm
      (if ps.isEmpty then s.answer path else s.below fuel ps path) := by
  rw [answer_moved h]
  split
  · exact .refl _
  · exact (ih ps path).below

theorem below_moved :
    ((s.moved fs').below (fuel + 1) (p :: ps) path).Perm (s.below (fuel + 1) (p :: ps) path) := by
  rw [below, below, isFolder_moved h]
  cases literal? p with
  | some name =>
    have found : (s.moved fs').tree.find (onwards path name) =
      s.tree.find (onwards path name) := h.find _
    dsimp only
    rw [found]
    split <;> split <;> first | exact onward_moved h ih _ | exact .refl _
  | none =>
    dsimp only
    split
    · refine .append ?_ ((inside_moved h path).flatMap fun q _ => (ih (p :: ps) q).at_)
      split
      · exact .flatMap_left _ fun name _ => onward_moved h ih _
      · exact .refl _
    · exact .refl _

theorem at_moved :
    ((s.moved fs').at_ (fuel + 1) (p :: ps) path).Perm (s.at_ (fuel + 1) (p :: ps) path) := by
  rw [at_, at_, isFolder_moved h]
  split
  · split
    · split
      · exact (ih [p] path).below.cons _
      · exact .refl _
    · refine .append (ih _ path).named ?_
      split
      · exact (ih _ path).below
      · exact .refl _
  · exact (ih _ path).named

theorem named_moved :
    ((s.moved fs').named (fuel + 1) (p :: ps) path).Perm (s.named (fuel + 1) (p :: ps) path) := by
  rw [Search.named, Search.named]
  cases (components path).getLast? with
  | none => exact .refl _
  | some last =>
    cases last with
    | normal name =>
      dsimp only
      split
      · exact onward_moved h ih path
      · exact .refl _
    | _ => exact .refl _

end

theorem moved_of_rearranged (h : s.tree.Rearranged fs') (fuel : Nat) (ps : List (List Token))
    (path : String) : s.Moved fs' fuel ps path := by
  -- on the fuel, which the three parts share
  induction fuel generalizing ps path with
  | zero => exact ⟨.refl _, .refl _, .refl _⟩
  | succ fuel ih =>
    cases ps with
    | nil => exact ⟨.refl _, .refl _, .refl _⟩
    | cons p ps => exact ⟨below_moved h ih, at_moved h ih, named_moved h ih⟩

end Glob.Search

namespace FileSystem

variable {fs fs' : FileSystem} {pattern path path' : String} {found files : List String}
  {loc : Location} {content content' : Text.Bytes}

theorem glob_eq_ok : fs.glob pattern = .ok found ↔
    ∃ ts ps, Glob.tokens pattern.toList = .ok ts ∧
      (Glob.names (if isAbsolute pattern then pattern.toList.tail else pattern.toList)).mapM
        Glob.tokens = .ok ps ∧
      found = Glob.Search.below ⟨fs, endsWithSlash pattern⟩
        (3 * (ps.length + 2) * (fs.depth + 2)) ps (if isAbsolute pattern then "/" else ".") := by
  refine bind_eq_ok.trans (exists_congr fun ts => ?_)
  rw [exists_and_left]
  refine and_congr_right fun _ => bind_eq_ok.trans (exists_congr fun ps => and_congr_right fun _ => ?_)
  exact ⟨fun h => (Except.ok.inj h).symm, fun h => congrArg Except.ok h.symm⟩

theorem Rearranged.glob (h : fs.Rearranged fs') (matched : fs.glob pattern = .ok found) :
    ∃ found', fs'.glob pattern = .ok found' ∧ found'.Perm found := by
  obtain ⟨ts, ps, tokens, parts, rfl⟩ := glob_eq_ok.mp matched
  refine ⟨_, glob_eq_ok.mpr ⟨ts, ps, tokens, parts, rfl⟩, ?_⟩
  rw [h.depth]
  exact (Glob.Search.moved_of_rearranged (s := ⟨fs, endsWithSlash pattern⟩) h _ ps _).below

def route (path : String) : List String := (namesOf path).filter (· ≠ ".")

theorem filterMap_ofName (names : List String) :
    (names.map Component.ofName).filterMap Component.name? = names.filter (· ≠ ".") := by
  induction names with
  | nil => rfl
  | cons name names ih =>
    rw [List.map_cons, List.filterMap_cons, Component.name?_ofName, ih]
    by_cases dot : name = "." <;> simp [dot]

theorem filter_dots_idem (names : List String) :
    (names.filter (· ≠ ".")).filter (· ≠ ".") = names.filter (· ≠ ".") := by
  rw [List.filter_filter]
  simp

theorem route_eq (path : String) : route path = (components path).filterMap Component.name? := by
  rw [route, components]
  split
  · change _ = (((namesOf path).filter (· ≠ ".")).map Component.ofName).filterMap _
    rw [filterMap_ofName, filter_dots_idem]
  · cases namesOf path with
    | nil => rfl
    | cons n ns =>
      change _ = ((n :: ns.filter (· ≠ ".")).map Component.ofName).filterMap _
      rw [filterMap_ofName, List.filter_cons, List.filter_cons, filter_dots_idem]

theorem isAbsolute_iff : isAbsolute path = true ↔ (components path).head? = some .root := by
  rw [components]
  split
  · next rooted => exact iff_of_true rooted rfl
  · next free =>
    refine iff_of_false free ?_
    cases namesOf path with
    | nil => nofun
    | cons n ns => exact fun h => Component.ofName_ne_root n (Option.some.inj h)

theorem walk_filter_dots {here : Location} {names : List String}
    (h : fs.walk here names = .ok loc) : fs.walk here (names.filter (· ≠ ".")) = .ok loc := by
  induction names generalizing here with
  | nil => exact h
  | cons name names ih =>
    obtain ⟨folder, next, stepped, walked⟩ := walk_cons_eq_ok.mp h
    by_cases dot : name = "."
    · obtain rfl : here = next := by
        rw [dot] at stepped
        exact Except.ok.inj stepped
      rw [List.filter_cons_of_neg (by simpa using dot)]
      exact ih walked
    · rw [List.filter_cons_of_pos (by simpa using dot)]
      exact walk_cons_eq_ok.mpr ⟨folder, next, stepped, ih walked⟩

theorem walk_route (h : fs.find path = .ok (.file content)) : ∃ loc,
    fs.walk (fs.origin path) (route path) = .ok loc ∧ fs.node? loc = some (.file content) := by
  obtain ⟨⟨loc, n⟩, resolved, h⟩ := bind_eq_ok.mp h
  obtain ⟨-, walked, rfl⟩ := resolve_eq_ok resolved
  cases node : fs.node? loc with
  | none =>
    rw [node] at h
    cases h
  | some n =>
    rw [node] at h
    cases h
    exact ⟨loc, walk_filter_dots walked, node⟩

theorem content_of_components (h : fs.find path = .ok (.file content))
    (h' : fs.find path' = .ok (.file content')) (same : components path = components path') :
    content = content' := by
  obtain ⟨loc, walked, node⟩ := walk_route h
  obtain ⟨loc', walked', node'⟩ := walk_route h'
  have rooted : isAbsolute path = isAbsolute path' := by
    rw [Bool.eq_iff_iff, isAbsolute_iff, isAbsolute_iff, same]
  obtain rfl : loc = loc' := by
    rw [origin, route_eq, rooted, same, ← route_eq] at walked
    exact Except.ok.inj (walked.symm.trans walked')
  cases node.symm.trans node'
  rfl

instance : Std.TransCmp comparePaths := inferInstanceAs (Std.TransCmp (compareOn components))

theorem pairwise_mergeSort_paths (paths : List String) :
    (paths.mergeSort fun a b => (comparePaths a b).isLE).Pairwise
      fun a b => (comparePaths a b).isLE := by
  refine List.pairwise_mergeSort (fun a b c => Std.TransCmp.isLE_trans) (fun a b => ?_) paths
  have swapped : comparePaths b a = (comparePaths a b).swap := Std.OrientedCmp.eq_swap
  rw [swapped]
  cases comparePaths a b <;> rfl

example : ["/d", "./d", "d/../x.csv", "d/-/x.csv"].Pairwise fun a b => comparePaths a b = .lt := by
  decide +kernel

/-- However the files are sorted, the same ones are gathered, and the steps of their paths stand in
the same order. -/
theorem globFiles_sorted (matched : fs.glob pattern = .ok found)
    (each : files.Perm (found.filter fs.isFile))
    (sorted : files.Pairwise fun a b => (comparePaths a b).isLE) : ∃ gathered : List String,
      fs.globFiles pattern = .ok gathered ∧ gathered.Perm files ∧
        gathered.map components = files.map components := by
  have same := (List.mergeSort_perm (found.filter fs.isFile) fun a b =>
    (comparePaths a b).isLE).trans each.symm
  refine ⟨_, by rw [globFiles, matched]; rfl, same, ?_⟩
  have theirs : (files.map components).Pairwise fun a b => (compare a b).isLE :=
    List.pairwise_map.mpr sorted
  refine (same.map components).eq_of_pairwise (fun a b _ _ le ge => ?_)
    (List.pairwise_map.mpr (pairwise_mergeSort_paths _)) theirs
  exact Std.LawfulEqOrd.eq_of_compare (Std.OrientedCmp.isLE_antisymm le ge)

end FileSystem

end TaskFlow
