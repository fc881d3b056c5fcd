import TaskFlow.Manager.Threads

namespace TaskFlow.Manager

namespace System

def call (s : System) (role : Role) : System := { s with threads := s.threads ++ [.start role] }

/-- The thread at a position takes its next action, if it has one left. -/
def goOn (s : System) (i : Nat) : List Event × System :=
  match s.threads.drop i with
  | ⟨role, .take action rest⟩ :: after =>
    ([⟨s, role, action⟩], ⟨(action.apply s.manager).1,
      s.threads.take i ++ ⟨role, rest (action.apply s.manager).2⟩ :: after⟩)
  | _ => ([], s)

def follow : System → List Nat → List Event × System
  | s, [] => ([], s)
  | s, i :: is => ((s.goOn i).1 ++ ((s.goOn i).2.follow is).1, ((s.goOn i).2.follow is).2)

end System

variable {config : Config} {es : List Event} {s : System}

theorem Run.goOn (h : Run config es s) (i : Nat) :
    Run config (es ++ (s.goOn i).1) (s.goOn i).2 := by
  unfold System.goOn
  split
  · next role action rest after ht =>
    have threads : s.threads = s.threads.take i ++ ⟨role, .take action rest⟩ :: after := by
      rw [← ht, List.take_append_drop]
    obtain ⟨m, ts⟩ := s
    simp only at threads ⊢
    generalize ts.take i = before at threads
    subst threads
    exact h.act
  · simpa using h

theorem Run.follow (h : Run config es s) (schedule : List Nat) :
    Run config (es ++ (s.follow schedule).1) (s.follow schedule).2 := by
  induction schedule generalizing es s with
  | nil => simpa [System.follow] using h
  | cons i is ih =>
    have later := ih (h.goOn i)
    rwa [List.append_assoc] at later

theorem System.admits_of_roles {role : Role} (roles : List Role)
    (hr : s.threads.map Thread.role = roles) (beside : ∀ r ∈ roles, r.Beside role)
    (worker : ∀ id c, role = .supervision id c → s.manager.workers.has id = true) :
    s.Admits role :=
  ⟨fun t ht => beside t.role (hr ▸ List.mem_map_of_mem ht), worker⟩

def oneSlot : Config :=
  { Config.default "worker" "/tmp" with maxConcurrency := 1, cacheMaxBytes := 100 }

def spool (ids : List String) : FileSystem where
  entries := ids.map (fun id => (["tmp", "flow-tasks", id ++ ".jsonl"], .file [49, 10])) ++
    [(["tmp", "flow-tasks"], .folder), (["tmp"], .folder)]

def idle : Manager where
  config := oneSlot
  now := default
  registry := { free := 1 }
  cache := { maxBytes := 100 }
  files := spool []

def small (id : String) : Role :=
  .submission id .execute (.obj [("steps", .arr [.obj [("op", .str "abort")]])]) none

theorem makeFolders_spool :
    FileSystem.makeFolders {} (Config.default "worker" "/tmp").spoolDir = (spool [], .ok ()) := by
  rfl

theorem run_idle : Run oneSlot [] ⟨idle, []⟩ :=
  .start (show Manager.start oneSlot {} default = .ok idle by
    rw [Manager.start, oneSlot, makeFolders_spool]
    rfl)

theorem Run.callSmall (h : Run config es s) (id : String) (roles : List Role)
    (hr : s.threads.map Thread.role = roles) (beside : ∀ r ∈ roles, r.Beside (small id)) :
    Run config es (s.call (small id)) :=
  h.call _ (System.admits_of_roles roles hr beside fun _ _ h => nomatch h)

/-- A configuration with two slots, and room for hardly more than one small result. -/
def twoSlots : Config := { oneSlot with maxConcurrency := 2, cacheMaxBytes := 3 }

def twoTasks : List Event × System :=
  let idle := { idle with
    config := twoSlots, registry := { free := 2 }, cache := { maxBytes := 3 } }
  let a := ((⟨idle, []⟩ : System).call (small "a")).follow [0, 0, 0, 0, 0, 0, 0]
  let b := (a.2.call (small "b")).follow [1, 1, 1, 1, 1, 1, 1]
  (a.1 ++ b.1, b.2)

theorem run_twoTasks : Run twoSlots twoTasks.1 twoTasks.2 := by
  have idle : Run twoSlots [] ⟨{ idle with
      config := twoSlots, registry := { free := 2 }, cache := { maxBytes := 3 } }, []⟩ :=
    .start (show Manager.start twoSlots {} default = .ok _ by
      rw [Manager.start, twoSlots, oneSlot, makeFolders_spool]
      rfl)
  have a := (idle.callSmall "a" [] rfl (by simp)).follow [0, 0, 0, 0, 0, 0, 0]
  exact (a.callSmall "b" [small "a"] rfl (by simp [Role.Beside, small])).follow
    [1, 1, 1, 1, 1, 1, 1]

end TaskFlow.Manager
