import TaskFlow.Proofs.Json.Fits
import TaskFlow.Table.Files

namespace TaskFlow.FileSystem

variable {fs fs' : FileSystem} {l loc : Location} {path : String} {content : Text.Bytes}

theorem node?_of_not_around (inside : fs.isAround l = false) :
    fs.node? l = (fs.entries.find? (·.1 == l)).map (·.2) :=
  if_neg (by simp [inside])

theorem node?_of_around (h : fs.isAround l = true) : fs.node? l = some .folder := if_pos h

@[simp] theorem isAround_erase : (fs.erase loc).isAround l = fs.isAround l := rfl

@[simp] theorem isAround_insert (n : Node) : (fs.insert loc n).isAround l = fs.isAround l := rfl

theorem not_around_of_node? (h : fs.node? loc ≠ some .folder) : fs.isAround loc = false :=
  Bool.eq_false_iff.mpr fun around => h (node?_of_around around)

theorem node?_erase (below : fs.isAround loc = false) :
    (fs.erase loc).node? l = if l = loc then none else fs.node? l := by
  cases inside : fs.isAround l with
  | true =>
    have other : l ≠ loc := by
      rintro rfl
      cases inside.symm.trans below
    rw [if_neg other, node?_of_around (isAround_erase.trans inside), node?_of_around inside]
  | false =>
    rw [node?_of_not_around (isAround_erase.trans inside), node?_of_not_around inside, erase,
      List.find?_filter]
    by_cases same : l = loc
    · simp [same]
    · have kept : (fun e : Location × Node =>
          decide ((!(e.1 == loc)) = true ∧ (e.1 == l) = true)) = fun e => e.1 == l := by
        funext e
        by_cases here : e.1 = l <;> simp [here, same]
      rw [kept, if_neg same]

theorem node?_insert (n : Node) (below : fs.isAround loc = false) :
    (fs.insert loc n).node? l = if l = loc then some n else fs.node? l := by
  cases inside : fs.isAround l with
  | true =>
    have other : l ≠ loc := by
      rintro rfl
      cases inside.symm.trans below
    rw [if_neg other, node?_of_around ((isAround_insert n).trans inside), node?_of_around inside]
  | false =>
    rw [node?_of_not_around ((isAround_insert n).trans inside), insert]
    by_cases same : l = loc
    · simp [same]
    · have other : ¬((loc, n).1 == l) = true := by simpa using Ne.symm same
      have rest : (fs.erase loc).node? l = _ := node?_erase below
      rw [node?_of_not_around (isAround_erase.trans inside), if_neg same] at rest
      rw [List.find?_cons_of_neg (a := (loc, n)) other, rest, if_neg same]

def file? (fs : FileSystem) (l : Location) : Option Text.Bytes :=
  match fs.node? l with
  | some (.file content) => some content
  | _ => none

theorem file?_congr (h : fs'.node? l = fs.node? l) : fs'.file? l = fs.file? l := by
  rw [file?, file?, h]

theorem file?_insert_of_ne (n : Node) (below : fs.isAround loc = false) (other : l ≠ loc) :
    (fs.insert loc n).file? l = fs.file? l :=
  file?_congr ((node?_insert n below).trans (if_neg other))

theorem resolve_eq_ok {n : Option Node} (h : fs.resolve path = .ok (loc, n)) :
    admissible path = .ok () ∧ fs.locate path = .ok loc ∧ n = fs.node? loc := by
  obtain ⟨⟨⟩, admitted, h⟩ := bind_eq_ok.mp h
  obtain ⟨loc', walked, h⟩ := bind_eq_ok.mp h
  dsimp only at h
  split at h
  · split at h <;> cases h
    exact ⟨admitted, walked, rfl⟩
  · cases h
    exact ⟨admitted, walked, rfl⟩

theorem makeFolder_file? (h : fs.makeFolder path = .ok fs') : fs'.file? l = fs.file? l := by
  obtain ⟨⟨loc, n⟩, resolved, h⟩ := bind_eq_ok.mp h
  obtain ⟨-, -, rfl⟩ := resolve_eq_ok resolved
  cases free : fs.node? loc with
  | some n =>
    rw [free] at h
    cases h
  | none =>
    rw [free] at h
    cases h
    have below : fs.isAround loc = false := not_around_of_node? (by rw [free]; nofun)
    by_cases same : l = loc
    · subst same
      rw [file?, file?, node?_insert _ below, if_pos rfl, free]
    · exact file?_insert_of_ne _ below same

theorem makeFoldersUp_file? (fs : FileSystem) (steps : List Component) :
    (fs.makeFoldersUp steps).1.file? l = fs.file? l := by
  induction steps with
  | nil => rfl
  | cons step up ih =>
    rw [makeFoldersUp]
    split
    · next made => exact makeFolder_file? made
    · split
      · next failed =>
        rw [failed] at ih
        exact ih
      · next around =>
        rw [around] at ih
        split
        · next made => exact (makeFolder_file? made).trans ih
        · exact ih
    · rfl

/-- A path leads on from a folder only; whoever goes on from the next place has found a folder
there, too. -/
theorem walk_cons_eq_ok {name : String} {names : List String} {here : Location} :
    fs.walk here (name :: names) = .ok loc ↔ fs.node? here = some .folder ∧
      ∃ next, step here name = .ok next ∧ fs.walk next names = .ok loc := by
  rw [walk]
  cases fs.node? here with
  | none => exact iff_of_false nofun fun h => nomatch h.1
  | some n =>
    cases n with
    | file => exact iff_of_false nofun fun h => nomatch h.1
    | folder =>
      refine bind_eq_ok.trans ?_
      rw [and_iff_right rfl]
      refine exists_congr fun next => and_congr_right fun _ => ?_
      cases names with
      | nil => rfl
      | cons more names =>
        rw [if_neg (by simp)]
        cases there : fs.node? next with
        | none =>
          refine iff_of_false nofun ?_
          rw [walk, there]
          nofun
        | some n => rfl

theorem walk_of_folders {names : List String} {here : Location}
    (folders : ∀ l, fs.node? l = some .folder → fs'.node? l = some .folder)
    (h : fs.walk here names = .ok loc) : fs'.walk here names = .ok loc := by
  induction names generalizing here with
  | nil => exact h
  | cons name names ih =>
    obtain ⟨node, next, stepped, walked⟩ := walk_cons_eq_ok.mp h
    exact walk_cons_eq_ok.mpr ⟨folders here node, next, stepped, ih walked⟩

/-- A path leads where it did when there was no file at its end, or another one. -/
theorem walk_insert {names : List String} {here : Location}
    (h : fs.walk here names = .ok loc) (free : fs.node? loc ≠ some .folder) :
    (fs.insert loc (.file content)).walk here names = .ok loc := by
  refine walk_of_folders (fun l node => ?_) h
  have other : l ≠ loc := by
    rintro rfl
    exact free node
  rwa [node?_insert _ (not_around_of_node? free), if_neg other]

theorem putFile_eq_ok (h : fs.putFile path content = .ok fs') :
    ∃ loc, admissible path = .ok () ∧ fs.locate path = .ok loc ∧
      fs.node? loc ≠ some .folder ∧ endsWithSlash path = false ∧
        fs' = fs.insert loc (.file content) := by
  obtain ⟨⟨⟩, admitted, h⟩ := bind_eq_ok.mp h
  obtain ⟨loc, walked, h⟩ := bind_eq_ok.mp h
  refine ⟨loc, admitted, walked, ?_⟩
  split at h
  · cases h
  · next old node =>
    split at h
    · cases h
    · next open_ =>
      cases h
      exact ⟨by rw [node]; nofun, Bool.eq_false_iff.mpr open_, rfl⟩
  · next node =>
    split at h
    · cases h
    · next open_ =>
      cases h
      exact ⟨by rw [node]; nofun, Bool.eq_false_iff.mpr open_, rfl⟩

theorem read_putFile (h : fs.putFile path content = .ok fs') : fs'.read path = .ok content := by
  obtain ⟨loc, admitted, walked, free, slash, rfl⟩ := putFile_eq_ok h
  have node : (fs.insert loc (.file content)).node? loc = some (.file content) :=
    (node?_insert _ (not_around_of_node? free)).trans (if_pos rfl)
  have resolved : (fs.insert loc (.file content)).resolve path =
      .ok (loc, some (.file content)) := by
    refine bind_eq_ok.mpr ⟨_, admitted, bind_eq_ok.mpr ⟨loc, walk_insert walked free, ?_⟩⟩
    rw [node]
    dsimp only
    rw [slash]
    rfl
  exact bind_eq_ok.mpr ⟨.file content, bind_eq_ok.mpr ⟨_, resolved, rfl⟩, rfl⟩

theorem putFile_file? (h : fs.putFile path content = .ok fs')
    (other : fs'.locate path ≠ .ok l) : fs'.file? l = fs.file? l := by
  obtain ⟨loc, -, walked, free, -, rfl⟩ := putFile_eq_ok h
  refine file?_insert_of_ne _ (not_around_of_node? free) fun same => other ?_
  rw [same]
  exact walk_insert walked free

theorem read_write (h : fs.write path content = (fs', .ok ())) : fs'.read path = .ok content := by
  unfold write at h
  split at h
  · cases h
  · split at h
    · next put =>
      cases h
      exact read_putFile put
    · cases h

theorem putFile_map (content content' : Text.Bytes) :
    (fs.putFile path content).map (fun _ => ()) = (fs.putFile path content').map fun _ => () := by
  unfold putFile
  cases admissible path with
  | error e => rfl
  | ok =>
    cases fs.locate path with
    | error e => rfl
    | ok loc =>
      dsimp only [bind, Except.bind]
      split
      · rfl
      · split <;> rfl
      · split <;> rfl

theorem write_snd (content content' : Text.Bytes) :
    (fs.write path content).2 = (fs.write path content').2 := by
  unfold write
  split
  · rfl
  · next fs _ =>
    have same : (fs.putFile path content).map (fun _ => ()) =
        (fs.putFile path content').map fun _ => () := putFile_map content content'
    cases put : fs.putFile path content with
    | ok =>
      cases put' : fs.putFile path content' with
      | ok => rfl
      | error =>
        rw [put, put'] at same
        cases same
    | error =>
      cases put' : fs.putFile path content' with
      | ok =>
        rw [put, put'] at same
        cases same
      | error =>
        rw [put, put'] at same
        cases same
        rfl

theorem write_file?
    (other : (fs.write path content).1.locate path ≠ .ok l) :
    (fs.write path content).1.file? l = fs.file? l := by
  have folders := makeFoldersUp_file? (l := l) fs (components path).reverse.tail
  unfold write at other ⊢
  split
  · next made =>
    rw [made] at folders
    exact folders
  · next made =>
    rw [made] at folders other
    dsimp only at other
    split
    · next put =>
      rw [put] at other
      exact (putFile_file? put other).trans folders
    · exact folders

theorem walk_erase {names : List String} {here : Location} (h : fs.walk here names = .ok loc)
    (node : fs.node? loc = some (.file content)) : (fs.erase loc).walk here names = .ok loc := by
  refine walk_of_folders (fun l folder => ?_) h
  have other : l ≠ loc := by
    rintro rfl
    cases folder.symm.trans node
  rwa [node?_erase (not_around_of_node? (by rw [node]; nofun)), if_neg other]

theorem remove_eq_ok (h : fs.remove path = .ok fs') : ∃ loc content,
    admissible path = .ok () ∧ fs.locate path = .ok loc ∧ fs.node? loc = some (.file content) ∧
      fs' = fs.erase loc := by
  obtain ⟨⟨loc, n⟩, resolved, h⟩ := bind_eq_ok.mp h
  obtain ⟨admitted, walked, rfl⟩ := resolve_eq_ok resolved
  cases node : fs.node? loc with
  | none =>
    rw [node] at h
    cases h
  | some n =>
    rw [node] at h
    cases n with
    | folder => cases h
    | file content =>
      cases h
      exact ⟨loc, content, admitted, walked, node, rfl⟩

theorem remove_of_find (h : fs.find path = .ok (.file content)) :
    ∃ fs', fs.remove path = .ok fs' := by
  obtain ⟨⟨loc, n⟩, resolved, h⟩ := bind_eq_ok.mp h
  cases n with
  | none => cases h
  | some n =>
    cases h
    exact ⟨_, bind_eq_ok.mpr ⟨_, resolved, rfl⟩⟩

theorem find_of_removed (h : fs.remove path = .ok fs') :
    ∃ content, fs.find path = .ok (.file content) := by
  obtain ⟨⟨loc, n⟩, resolved, h⟩ := bind_eq_ok.mp h
  cases n with
  | none => cases h
  | some n =>
    cases n with
    | folder => cases h
    | file content => exact ⟨content, bind_eq_ok.mpr ⟨_, resolved, rfl⟩⟩

theorem find_of_remove (h : fs.remove path = .ok fs') : fs'.find path = .error .notFound := by
  obtain ⟨loc, content, admitted, walked, node, rfl⟩ := remove_eq_ok h
  have gone : (fs.erase loc).node? loc = none :=
    (node?_erase (not_around_of_node? (by rw [node]; nofun))).trans (if_pos rfl)
  have resolved : (fs.erase loc).resolve path = .ok (loc, none) := by
    refine bind_eq_ok.mpr ⟨_, admitted, bind_eq_ok.mpr ⟨loc, walk_erase walked node, ?_⟩⟩
    rw [gone]
    rfl
  rw [find, resolved]
  rfl

theorem locate_of_remove (h : fs.remove path = .ok fs') : fs'.locate path = fs.locate path := by
  obtain ⟨loc, content, -, walked, node, rfl⟩ := remove_eq_ok h
  rw [walked]
  exact walk_erase walked node

theorem read_eq_ok : fs.read path = .ok content ↔ fs.find path = .ok (.file content) := by
  refine bind_eq_ok.trans ⟨?_, fun found => ⟨_, found, rfl⟩⟩
  rintro ⟨n, found, h⟩
  cases n with
  | file => cases h; exact found
  | folder => cases h

/-- What is left of a path when a file there is removed goes by what was read there. -/
theorem read_removed : ((fs.remove path).toOption.getD fs).read path =
    (fs.read path).bind fun _ => .error .notFound := by
  cases removed : fs.remove path with
  | ok fs' =>
    obtain ⟨content, found⟩ := find_of_removed removed
    rw [read_eq_ok.mpr found]
    change fs'.read path = _
    rw [read, find_of_remove removed]
    rfl
  | error e =>
    change fs.read path = _
    cases here : fs.read path with
    | error => rfl
    | ok content =>
      obtain ⟨fs', done⟩ := remove_of_find (read_eq_ok.mp here)
      cases removed.symm.trans done

theorem node?_of_remove (h : fs.remove path = .ok fs') (other : fs.locate path ≠ .ok l) :
    fs'.node? l = fs.node? l := by
  obtain ⟨loc, content, -, walked, node, rfl⟩ := remove_eq_ok h
  rw [node?_erase (not_around_of_node? (by rw [node]; nofun)), if_neg]
  rintro rfl
  exact other walked

variable {t : Table}

theorem writeJsonl_fst : (fs.writeJsonl path t).1 = (fs.write path t.toJsonl).1 := by
  rw [writeJsonl]
  split <;> next h => rw [h]

theorem writeCsv_fst : (fs.writeCsv path t).1 = (fs.write path t.toCsv).1 := by
  rw [writeCsv]
  split <;> next h => rw [h]

theorem writeJsonl_eq_ok {bytes : Nat} (h : fs.writeJsonl path t = (fs', .ok bytes)) :
    fs'.read path = .ok t.toJsonl ∧ bytes = t.toJsonl.length := by
  unfold writeJsonl at h
  split at h
  · next wrote =>
    cases h
    exact ⟨read_write wrote, rfl⟩
  · cases h

end TaskFlow.FileSystem
