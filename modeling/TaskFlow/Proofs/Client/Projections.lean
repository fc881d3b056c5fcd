import TaskFlow.Client.Run
import TaskFlow.Manager.Router
import TaskFlow.Proofs.Manager.Protocol
import TaskFlow.Proofs.Manager.Schedule
import TaskFlow.Proofs.Task.Info

namespace TaskFlow

open Json Json.Decode

variable {m : Manager} {id fresh : String} {r : Http.Request} {launchError? : Option FileError}

/-- Whether a request is about the task that a part of its path names. -/
def Http.Request.About (r : Http.Request) (route : String → Route) (id : String) : Prop :=
  ∃ part, Route.ofSegments? r.segments = some (route part) ∧
    Text.fromUtf8? (Http.unescape part.toList) = some id

namespace Router

def answerOf (m : Manager) (r : Http.Request) (fresh : String) (launchError? : Option FileError) :
    Http.Response :=
  ((handle r fresh launchError?).run m).2

theorem handle_get {route : Route} {op : Manager.Op Http.Response} (get : r.method = "GET")
    (routed : Route.ofSegments? r.segments = some route) (read : read? route = some op) :
    handle r fresh launchError? = op := by
  rw [handle, routed, get]
  dsimp only
  rw [read]
  rfl

theorem about_eq {part : String} {f : String → Manager.Op Http.Response}
    (named : Text.fromUtf8? (Http.unescape part.toList) = some id) : about part f = f id := by
  rw [about, named]

theorem answerOf_task {t : TaskInfo} (get : r.method = "GET") (about : r.About .task id)
    (known : m.registry.get? id = some t) :
    answerOf m r fresh launchError? = .ofJson 200 t.toJson := by
  obtain ⟨part, routed, named⟩ := about
  rw [answerOf, handle_get get routed rfl, about_eq named, Manager.Op.run_bind, Manager.status,
    Manager.Op.run_bind, Manager.info?, Manager.Op.run_perform]
  dsimp only [Manager.Action.apply]
  rw [known]
  rfl

theorem answerOf_tasks (get : r.method = "GET")
    (routed : Route.ofSegments? r.segments = some .tasks) : answerOf m r fresh launchError? =
      .ofJson 200 (.arr (m.registry.list.map TaskInfo.toJson)) := by
  rw [answerOf, handle_get get routed rfl]
  rfl

theorem answerOf_memory (get : r.method = "GET") (about : r.About .memory id) :
    answerOf m r fresh launchError? =
      .ofJson 200 (.arr ((m.registry.memory id).map MemorySample.toJson)) := by
  obtain ⟨part, routed, named⟩ := about
  rw [answerOf, handle_get get routed rfl, about_eq named]
  rfl

end Router

namespace Client

theorem valueOf_carried {α : Type} {read : Decoder α} {a : α} {j : Json}
    (h : Carries read maxDepth a j) : valueOf read (.ofJson 200 j) = .ok a := by
  have success : check (.ofJson 200 j) = .ok (.ofJson 200 j) := if_pos rfl
  have body : fromText read (Http.Response.ofJson 200 j).body = .ok a := h.fromText
  exact bind_eq_ok.mpr ⟨_, success, by rw [body]; rfl⟩

/-- What a client reads in the answers for a task, for all tasks and for the samples of a task is
what they were made from. -/
theorem projections_agree {t : TaskInfo} {ts : List TaskInfo} {samples : List MemorySample}
    (task : t.Readable) (tasks : ∀ t ∈ ts, t.Readable) (measured : ∀ s ∈ samples, s.Readable) :
    (valueOf TaskInfo.decode (.ofJson 200 t.toJson) = .ok t ∧
      valueOf (list TaskInfo.decode) (.ofJson 200 (.arr (ts.map TaskInfo.toJson))) = .ok ts ∧
      valueOf (list MemorySample.decode) (.ofJson 200 (.arr (samples.map MemorySample.toJson))) =
        .ok samples) ∧
    ∀ (m : Manager) (r : Http.Request) (fresh : String) (launchError? : Option FileError),
      r.method = "GET" →
      (∀ id, r.About .task id → m.registry.get? id = some t →
        valueOf TaskInfo.decode (Router.answerOf m r fresh launchError?) = .ok t) ∧
      (Route.ofSegments? r.segments = some .tasks → m.registry.list = ts →
        valueOf (list TaskInfo.decode) (Router.answerOf m r fresh launchError?) = .ok ts) ∧
      (∀ id, r.About .memory id → m.registry.memory id = samples →
        valueOf (list MemorySample.decode) (Router.answerOf m r fresh launchError?) =
          .ok samples) := by
  have one := valueOf_carried (TaskInfo.carries task)
  have all := valueOf_carried (carries_list fun t ht => TaskInfo.carries (tasks t ht))
  have memory := valueOf_carried (carries_list fun s hs => MemorySample.carries (measured s hs))
  refine ⟨⟨one, all, memory⟩, fun m r fresh launchError? get => ⟨fun id about known => ?_,
    fun routed listed => ?_, fun id about sampled => ?_⟩⟩
  · rw [Router.answerOf_task get about known, one]
  · rw [Router.answerOf_tasks get routed, listed, all]
  · rw [Router.answerOf_memory get about, sampled, memory]

/-- A task that has run into trouble, at instants with three, nine and six digits. -/
def troubled : TaskInfo where
  id := "t/1"
  kind := .fuzzyJoin
  status := .failed
  createdAt := ⟨1709251199, 120000000⟩
  startedAt := some ⟨1709251200, 123456789⟩
  endedAt := some ⟨-62167219200, 45000⟩
  progress := Run.share 1 3
  message := some "paso\n\"1/3\" \\"
  error := some (.workerCrashed "\x7b\"kind\":null\x7d")
  resultRef := some ⟨"null", 3, UInt64.size - 1⟩

theorem troubled_readable : troubled.Readable where
  created := ⟨by decide, by decide⟩
  started := by rintro i ⟨⟩; exact ⟨by decide, by decide⟩
  ended := by rintro i ⟨⟩; exact ⟨by decide, by decide⟩
  progress := by decide +kernel
  result := by rintro r ⟨⟩; exact ⟨by decide, by decide⟩

def waiting : TaskInfo := .queued "w" .execute ⟨1, 0⟩

theorem waiting_readable : waiting.Readable where
  created := ⟨by decide, by decide⟩
  started := nofun
  ended := nofun
  progress := by decide +kernel
  result := nofun

def extremes : List MemorySample := [⟨⟨0, 0⟩, 0⟩, ⟨⟨253402300799, 999999999⟩, UInt64.size - 1⟩]

theorem extremes_readable : ∀ s ∈ extremes, s.Readable :=
  List.forall_mem_cons.mpr ⟨⟨⟨by decide, by decide⟩, by decide⟩,
    List.forall_mem_singleton.mpr ⟨⟨by decide, by decide⟩, by decide⟩⟩

/-- A manager that knows of both tasks, and of the samples of one. -/
def informed : Manager :=
  { Manager.idle with registry :=
    { free := 1, tasks := [("w", ⟨waiting, []⟩), ("t/1", ⟨troubled, extremes⟩)] } }

def reading (path : String) : Http.Request := { method := "GET", path }

theorem reading_informed :
    ((reading "/api/v1/tasks/t%2F1").About .task "t/1" ∧
      (reading "/api/v1/tasks/t%2F1/memory").About .memory "t/1") ∧
    valueOf TaskInfo.decode (Router.answerOf informed (reading "/api/v1/tasks/t%2F1") "x" none) =
      .ok troubled ∧
    valueOf (list TaskInfo.decode) (Router.answerOf informed (reading "/api/v1/tasks") "x" none) =
      .ok [waiting, troubled] ∧
    valueOf (list MemorySample.decode)
      (Router.answerOf informed (reading "/api/v1/tasks/t%2F1/memory") "x" none) =
        .ok extremes := by
  have task : (reading "/api/v1/tasks/t%2F1").About .task "t/1" :=
    ⟨"t%2F1", by decide +kernel, by decide +kernel⟩
  have samples : (reading "/api/v1/tasks/t%2F1/memory").About .memory "t/1" :=
    ⟨"t%2F1", by decide +kernel, by decide +kernel⟩
  have both : ∀ t ∈ [waiting, troubled], t.Readable :=
    List.forall_mem_cons.mpr ⟨waiting_readable, List.forall_mem_singleton.mpr troubled_readable⟩
  have listed : informed.registry.list = [waiting, troubled] :=
    List.mergeSort_of_pairwise (by decide)
  obtain ⟨-, served⟩ := projections_agree troubled_readable both extremes_readable
  exact ⟨⟨task, samples⟩, (served informed _ "x" none rfl).1 _ task rfl,
    (served informed _ "x" none rfl).2.1 (by decide +kernel) listed,
    (served informed _ "x" none rfl).2.2 _ samples rfl⟩

end Client

end TaskFlow
