import TaskFlow.Proofs.Instant
import TaskFlow.Proofs.Json.Carries
import TaskFlow.Task.Info

namespace TaskFlow

open Json Json.Decode

variable {n : Nat}

theorem Instant.carries {t : Instant} (h : t.Ordinary) : Carries Instant.decode n t t.toJson :=
  ⟨_, scansAs_str t.text, .str t.text, fun _ => by rw [Doc.ofJson, decode, parse_text h]⟩

theorem JobKind.carries (k : JobKind) : Carries JobKind.decode n k k.toJson :=
  carries_names (by cases k <;> rfl)

theorem Status.carries (s : Status) : Carries Status.decode n s s.toJson :=
  carries_names (by cases s <;> rfl)

theorem TaskFailure.carries (e : TaskFailure) : Carries TaskFailure.decode (n + 1) e e.toJson := by
  cases e with
  | workerCrashed d => exact carries_adjacent (by decide) rfl ((carries_string d).map _)
  | application d => exact carries_adjacent (by decide) rfl ((carries_string d).map _)

/-- Whether a reference to a result can be read back: its counts have 64 bits. -/
structure ResultRef.Readable (r : ResultRef) : Prop where
  rows : r.rows < UInt64.size
  bytes : r.bytes < UInt64.size

theorem ResultRef.carries {r : ResultRef} (h : r.Readable) :
    Carries ResultRef.decode (n + 1) r r.toJson :=
  carries_record (.cons (carries_string r.key) (.cons (carries_natural h.rows)
    (.cons (carries_natural h.bytes) .nil))) (by decide)

/-- Whether a sample can be read back: its instant is ordinary, and its count has 64 bits. -/
structure MemorySample.Readable (s : MemorySample) : Prop where
  time : s.time.Ordinary
  bytes : s.bytes < UInt64.size

theorem MemorySample.carries {s : MemorySample} (h : s.Readable) :
    Carries MemorySample.decode (n + 1) s s.toJson :=
  carries_record (.cons (Instant.carries h.time) (.cons (carries_natural h.bytes) .nil))
    (by decide)

theorem carries_ofOption {α : Type} {read : Decoder α} {write : α → Json} {o : Option α}
    (refuses : ∀ src a, read src .null ≠ .ok a) (h : ∀ a ∈ o, Carries read n a (write a)) :
    Carries (optional read) n o (Json.ofOption write o) := by
  cases o with
  | none => exact carries_null
  | some a => exact (h a rfl).optional (refuses · a)

namespace TaskInfo

/-- Whether a task can be read back: its instants are ordinary, its counts have 64 bits, and its
progress is read back from its text. -/
structure Readable (t : TaskInfo) : Prop where
  created : t.createdAt.Ordinary
  started : ∀ i ∈ t.startedAt, i.Ordinary
  ended : ∀ i ∈ t.endedAt, i.Ordinary
  progress : fromText single (Number.single t.progress).text = .ok t.progress
  result : ∀ r ∈ t.resultRef, r.Readable

theorem carries {t : TaskInfo} (h : t.Readable) :
    Carries TaskInfo.decode (n + 2) t t.toJson := by
  have instant {o : Option Instant} (ho : ∀ i ∈ o, i.Ordinary) :
      Carries (optional Instant.decode) (n + 1) o (Json.ofOption Instant.toJson o) :=
    carries_ofOption (fun _ _ => nofun) fun i hi => Instant.carries (ho i hi)
  have message : Carries (optional string) (n + 1) t.message (Json.ofOption .str t.message) :=
    carries_ofOption (fun _ _ => nofun) fun s _ => carries_string s
  have error : Carries (optional TaskFailure.decode) (n + 1) t.error
      (Json.ofOption TaskFailure.toJson t.error) :=
    carries_ofOption (fun _ _ => nofun) fun e _ => TaskFailure.carries e
  have result : Carries (optional ResultRef.decode) (n + 1) t.resultRef
      (Json.ofOption ResultRef.toJson t.resultRef) :=
    carries_ofOption (fun _ _ => nofun) fun r hr => ResultRef.carries (h.result r hr)
  exact carries_record (.cons (carries_string t.id) (.cons (JobKind.carries t.kind)
    (.cons (Status.carries t.status) (.cons (Instant.carries h.created)
      (.cons (instant h.started) (.cons (instant h.ended) (.cons (carries_single h.progress)
        (.cons message (.cons error (.cons result .nil)))))))))) (by decide)

end TaskInfo

end TaskFlow
