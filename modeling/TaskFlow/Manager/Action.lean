import TaskFlow.Manager.Basic
import TaskFlow.Manager.TaskError
import TaskFlow.Procedure
import TaskFlow.Table.Files

namespace TaskFlow

namespace Manager

inductive Action
  | isAccepting
  | acquire
  | record (id : String) (kind : JobKind)
  | forget (id : String)
  | release (id : String)
  | launch (id : String) (job : Job)
  | register (id : String)
  | unregister (id : String)
  | isSupervised (id : String)
  | send (id : String) (mode : StopMode)
  | info (id : String)
  | list
  | samples (id : String)
  | cancel (id : String)
  | markRunning (id : String)
  | noteProgress (id : String) (fraction : Single) (message : Option String)
  | noteMemory (id : String) (bytes : Nat)
  | complete (id : String) (result : ResultRef)
  | fail (id : String) (failure : TaskFailure)
  | store (id : String) (table : Table) (bytes : Nat)
  | fetch (id : String)
  | acknowledge (id : String)
  | evict (id : String)
  | load (id : String)
  | removeArtifact (id : String)
  | reap (id : String)
  | expired (ttl : Int)
  | stopAccepting
  | stopSweeping
  | activeIds
  | drain

namespace Action

abbrev Answer : Action → Type
  | .isAccepting | .isSupervised _ | .send .. | .release _ => Bool
  | .acquire => Except TaskError Unit
  | .info _ | .forget _ => Option TaskInfo
  | .list => List TaskInfo
  | .samples _ => List MemorySample
  | .cancel _ => Except TransitionError CancelOutcome
  | .markRunning _ | .complete .. | .fail .. => Except TransitionError Status
  | .noteProgress .. | .noteMemory .. | .evict _ => Bool
  | .store .. => Except CacheError ResultRef
  | .fetch _ => Except CacheError Table
  | .acknowledge _ => Except CacheError Unit
  | .load _ => Except StorageError (Table × Nat)
  | .expired _ | .activeIds | .drain => List String
  | .record .. | .launch .. | .register _ | .unregister _ | .removeArtifact _ | .reap _ => Unit
  | .stopAccepting | .stopSweeping => Unit

end Action

def onRegistry {α : Type} (m : Manager) (f : Registry → Instant → Registry × α) : Manager × α :=
  ({ m with registry := (f m.registry m.now).1 }, (f m.registry m.now).2)

def onCache {α : Type} (m : Manager) (f : Cache → Cache × α) : Manager × α :=
  ({ m with cache := (f m.cache).1 }, (f m.cache).2)

def acquire (m : Manager) : Manager × Except TaskError Unit :=
  match m.registry.acquire? with
  | some registry => ({ m with registry }, .ok ())
  | none => (m, .error (.resourceExhausted m.config.maxConcurrency))

/-- The table that a task left, and the size of its file. -/
def loadArtifact (m : Manager) (id : String) : Except StorageError (Table × Nat) := do
  let table ← m.files.readTable (m.artifactPath id)
  let content ← (m.files.read (m.artifactPath id)).mapError StorageError.file
  return (table, content.length)

def withoutArtifact (m : Manager) (id : String) : Manager :=
  { m with files := (m.files.remove (m.artifactPath id)).toOption.getD m.files }

def Action.apply : (act : Action) → Manager → Manager × act.Answer
  | .isAccepting, m => (m, m.accepting)
  | .acquire, m => m.acquire
  | .record id kind, m =>
    ({ m with registry := m.registry.insert (.queued id kind m.now) true }, ())
  | .forget id, m => m.onRegistry fun r _ => r.remove id
  | .release id, m => m.onRegistry fun r _ => r.releaseSlot id
  | .launch id job, m => (m.launch id job, ())
  | .register id, m => ({ m with supervisors := id :: m.supervisors }, ())
  | .unregister id, m => ({ m with supervisors := m.supervisors.erase id }, ())
  | .isSupervised id, m => (m, m.supervisors.contains id)
  | .send id mode, m => m.send id mode
  | .info id, m => (m, m.registry.get? id)
  | .list, m => (m, m.registry.list)
  | .samples id, m => (m, m.registry.memory id)
  | .cancel id, m => m.onRegistry (·.cancel id)
  | .markRunning id, m => m.onRegistry (·.markRunning id)
  | .noteProgress id fraction message, m =>
    m.onRegistry fun r _ => r.setProgress id fraction message
  | .noteMemory id bytes, m => m.onRegistry fun r now => r.recordMemory id ⟨now, bytes⟩
  | .complete id result, m => m.onRegistry (·.complete id result)
  | .fail id failure, m => m.onRegistry (·.fail id failure)
  | .store id table bytes, m => m.onCache (·.put id table bytes)
  | .fetch id, m => m.onCache (·.get id)
  | .acknowledge id, m => m.onCache (·.acknowledge id)
  | .evict id, m => m.onCache (·.evict id)
  | .load id, m => (m, m.loadArtifact id)
  | .removeArtifact id, m => (m.withoutArtifact id, ())
  | .reap id, m => ({ m with workers := m.workers.erase id }, ())
  | .expired ttl, m => (m, m.registry.expired m.now ttl)
  | .stopAccepting, m => ({ m with accepting := false }, ())
  | .stopSweeping, m => ({ m with sweeping := false }, ())
  | .activeIds, m => (m, m.registry.activeIds)
  | .drain, m => ({ m with supervisors := [] }, m.supervisors)

abbrev Op (α : Type) := Procedure Action.Answer α

def perform (act : Action) : Op act.Answer := .take act .done

def Op.run {α : Type} (op : Op α) (m : Manager) : Manager × α := Procedure.run Action.apply op m

end Manager

end TaskFlow
