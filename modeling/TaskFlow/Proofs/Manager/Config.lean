import TaskFlow.Manager.Config
import TaskFlow.Proofs.Text.Trim

namespace TaskFlow

/-- The characters of a natural number of 64 bits: decimal digits, perhaps after a plus sign. -/
def Numeral (cs : List Char) (n : Nat) : Prop :=
  ∃ ds, (cs = ds ∨ cs = '+' :: ds) ∧ ds ≠ [] ∧ (∀ d ∈ ds, d.isDigit) ∧
    Nat.ofDigitChars 10 ds 0 = n ∧ n ≤ maxNatural

theorem not_blank_of_isDigit {c : Char} (h : c.isDigit = true) :
    ¬Text.isBlank c = true ∧ c ≠ '+' := by
  have range : 48 ≤ c.toNat ∧ c.toNat ≤ 57 := by
    simpa [Char.isDigit, UInt32.le_iff_toNat_le] using h
  constructor
  · simp only [Text.isBlank]
    grind
  · rintro rfl
    exact absurd range (by decide)

theorem Numeral.not_blank {cs : List Char} {n : Nat} (h : Numeral cs n) :
    ∀ c ∈ cs, ¬Text.isBlank c = true := by
  obtain ⟨ds, shape, -, digits, -⟩ := h
  have body : ∀ c ∈ ds, ¬Text.isBlank c = true := fun c hc =>
    (not_blank_of_isDigit (digits c hc)).1
  rcases shape with rfl | rfl
  · exact body
  · exact List.forall_mem_cons.mpr ⟨by decide, body⟩

theorem natural64?_eq_some_iff {s : String} {n : Nat} :
    natural64? s = some n ↔ Numeral s.toList n := by
  have value (ds : List Char) :
      ds.foldl (fun n c => n * 10 + (c.toNat - '0'.toNat)) 0 = Nat.ofDigitChars 10 ds 0 := by
    simp only [Nat.ofDigitChars, Nat.mul_comm 10]
  have digits (ds : List Char) :
      (if ds.isEmpty || !ds.all Char.isDigit then none
        else if Nat.ofDigitChars 10 ds 0 ≤ maxNatural then some (Nat.ofDigitChars 10 ds 0)
        else none) = some n ↔
      ds ≠ [] ∧ (∀ d ∈ ds, d.isDigit) ∧ Nat.ofDigitChars 10 ds 0 = n ∧ n ≤ maxNatural := by
    grind
  simp only [natural64?, value, digits]
  split
  · next ds signed =>
    rw [signed]
    constructor
    · exact fun h => ⟨ds, .inr rfl, h⟩
    · rintro ⟨ds', rfl | same, h⟩
      · exact absurd rfl (not_blank_of_isDigit (h.2.1 _ (List.mem_cons_self ..))).2
      · exact (List.cons.inj same).2 ▸ h
  · next bare =>
    constructor
    · exact fun h => ⟨_, .inl rfl, h⟩
    · rintro ⟨ds', rfl | signed, h⟩
      · exact h
      · exact absurd signed (bare _)

namespace Environment

variable (env : Environment) (name : String)

def Holds (s : String) : Prop := env.raw? name = some (Text.utf8 s)

def Spells (n : Nat) : Prop :=
  ∃ before core after, env.Holds name (.ofList (before ++ core ++ after)) ∧
    (∀ c ∈ before, Text.isBlank c) ∧ Numeral core n ∧ ∀ c ∈ after, Text.isBlank c

variable {env name}

theorem text?_eq_some_iff {s : String} : env.text? name = some s ↔ env.Holds name s := by
  rw [text?, Option.bind_eq_some_iff, Holds]
  constructor
  · rintro ⟨bytes, raw, read⟩
    rw [raw, Text.fromUtf8?_eq_some_iff.mp read]
  · exact fun raw => ⟨_, raw, Text.fromUtf8?_utf8 s⟩

theorem number?_eq_some_iff {n : Nat} : Config.number? env name = some n ↔ env.Spells name n := by
  rw [Config.number?, Option.bind_eq_some_iff]
  constructor
  · rintro ⟨s, read, value⟩
    obtain ⟨before, after, cut, first, last⟩ := Text.exists_strip Text.isBlank s.toList
    rw [natural64?_eq_some_iff, Text.trim, String.toList_ofList] at value
    refine ⟨before, _, after, ?_, first, value, last⟩
    rw [← cut, String.ofList_toList]
    exact text?_eq_some_iff.mp read
  · rintro ⟨before, core, after, holds, first, value, last⟩
    refine ⟨_, text?_eq_some_iff.mpr holds, ?_⟩
    rw [natural64?_eq_some_iff, Text.trim, String.toList_ofList, String.toList_ofList,
      Text.strip_append_append first value.not_blank last]
    exact value

theorem positive?_eq_some_iff {n : Nat} :
    Config.positive? env name = some n ↔ 0 < n ∧ env.Spells name n := by
  rw [Config.positive?, Option.filter_eq_some_iff, number?_eq_some_iff, decide_eq_true_eq, and_comm]

theorem Spells.unique {m n : Nat} (hm : env.Spells name m) (hn : env.Spells name n) : m = n :=
  Option.some.inj
    ((number?_eq_some_iff.mpr hm).symm.trans (number?_eq_some_iff.mpr hn))

end Environment

/-- A field is what its variable means, or its default where the variable means nothing. -/
def Given {α : Type} (Means : α → Prop) (default field : α) : Prop :=
  Means field ∨ (∀ a, ¬Means a) ∧ field = default

theorem given_iff {α : Type} {Means : α → Prop} {read : Option α} {default field : α}
    (reads : ∀ a, read = some a ↔ Means a) :
    Given Means default field ↔ field = read.getD default := by
  simp only [Given, ← reads]
  cases read <;> simp [eq_comm]

theorem given_map_iff {α β : Type} {Means : α → Prop} {read : Option α} {unit : α → β}
    {default field : β} (reads : ∀ a, read = some a ↔ Means a) :
    Given (fun b => ∃ a, Means a ∧ b = unit a) default field ↔
      field = (read.map unit).getD default :=
  given_iff fun b => by simp only [Option.map_eq_some_iff, reads, eq_comm]

/-- What holds of every meaning of a variable, and of the default if it has none, is what holds of
the field. -/
theorem Given.forall_iff {α : Type} {Means : α → Prop} {default field : α} {P : α → Prop}
    (given : Given Means default field) (unique : ∀ a b, Means a → Means b → a = b) :
    P field ↔ (∀ a, Means a → P a) ∧ ((∀ a, ¬Means a) → P default) := by
  rcases given with means | ⟨none, rfl⟩
  · exact ⟨fun h => ⟨fun a ha => unique _ _ means ha ▸ h, fun none => absurd means (none _)⟩,
      fun h => h.1 _ means⟩
  · exact ⟨fun h => ⟨fun a ha => absurd ha (none a), fun _ => h⟩, fun h => h.2 none⟩

namespace Config

section Read

variable {env : Environment} {name : String}

theorem given_text_iff {default field : String} :
    Given (env.Holds name) default field ↔ field = (env.text? name).getD default :=
  given_iff fun _ => Environment.text?_eq_some_iff

theorem given_number_iff {default field : Nat} :
    Given (env.Spells name) default field ↔ field = (number? env name).getD default :=
  given_iff fun _ => Environment.number?_eq_some_iff

theorem given_positive_iff {default field : Nat} :
    Given (fun n => 0 < n ∧ env.Spells name n) default field ↔
      field = (positive? env name).getD default :=
  given_iff fun _ => Environment.positive?_eq_some_iff

theorem given_seconds_iff {default field : Nat} :
    Given (fun t => ∃ s, env.Spells name s ∧ t = s * 1000) default field ↔
      field = ((number? env name).map (· * 1000)).getD default :=
  given_map_iff fun _ => Environment.number?_eq_some_iff

theorem given_positive_seconds_iff {default field : Nat} :
    Given (fun t => ∃ s, (0 < s ∧ env.Spells name s) ∧ t = s * 1000) default field ↔
      field = ((positive? env name).map (· * 1000)).getD default :=
  given_map_iff fun _ => Environment.positive?_eq_some_iff

theorem given_optional_seconds_iff {field : Option Nat} :
    Given (fun t => ∃ s, env.Spells name s ∧ t = some (s * 1000)) none field ↔
      field = (number? env name).map (· * 1000) := by
  rw [given_map_iff fun _ => Environment.number?_eq_some_iff]
  cases number? env name <;> rfl

end Read

/-- Each field of a configuration as its variable gives it. -/
structure FromVariables (program : String) (env : Environment) (c : Config) : Prop where
  maxConcurrency : Given (fun n => 0 < n ∧ env.Spells "MAX_CONCURRENCY" n) 4 c.maxConcurrency
  workerProgram : Given (env.Holds "WORKER_BIN") program c.workerProgram
  workerArgs : c.workerArgs = []
  spoolDir : Given (env.Holds "SPOOL_DIR") (joinPath (temporaryFolder env) "flow-tasks") c.spoolDir
  cancelGrace : Given (env.Spells "CANCEL_GRACE_MS") 5000 c.cancelGrace
  shutdownTimeout : Given (fun t => ∃ s, env.Spells "SHUTDOWN_TIMEOUT_SECS" s ∧ t = s * 1000)
    (30 * 1000) c.shutdownTimeout
  memoryInterval : Given (fun n => 0 < n ∧ env.Spells "MEMORY_SAMPLE_MS" n) 1000 c.memoryInterval
  cacheMaxBytes : Given (env.Spells "CACHE_MAX_BYTES") (1024 * 1024 * 1024) c.cacheMaxBytes
  taskTtl : Given (fun t => ∃ s, env.Spells "TASK_TTL_SECS" s ∧ t = some (s * 1000)) none c.taskTtl
  sweepInterval :
    Given (fun t => ∃ s, (0 < s ∧ env.Spells "SWEEP_INTERVAL_SECS" s) ∧ t = s * 1000)
      (60 * 1000) c.sweepInterval

theorem fromVariables_iff {program : String} {env : Environment} {c : Config} :
    c.FromVariables program env ↔ c = ofEnvironment program env := by
  constructor
  · intro h
    obtain ⟨⟩ := c
    simp only [ofEnvironment, mk.injEq]
    exact ⟨given_positive_iff.mp h.maxConcurrency, given_text_iff.mp h.workerProgram, h.workerArgs,
      given_text_iff.mp h.spoolDir, given_number_iff.mp h.cancelGrace,
      given_seconds_iff.mp h.shutdownTimeout, given_positive_iff.mp h.memoryInterval,
      given_number_iff.mp h.cacheMaxBytes, given_optional_seconds_iff.mp h.taskTtl,
      given_positive_seconds_iff.mp h.sweepInterval⟩
  · rintro rfl
    exact {
      maxConcurrency := given_positive_iff.mpr rfl
      workerProgram := given_text_iff.mpr rfl
      workerArgs := rfl
      spoolDir := given_text_iff.mpr rfl
      cancelGrace := given_number_iff.mpr rfl
      shutdownTimeout := given_seconds_iff.mpr rfl
      memoryInterval := given_positive_iff.mpr rfl
      cacheMaxBytes := given_number_iff.mpr rfl
      taskTtl := given_optional_seconds_iff.mpr rfl
      sweepInterval := given_positive_seconds_iff.mpr rfl }

def maxPermits : Nat := maxNatural / 8

def maxSeconds : Nat := UInt64.size / 2 - 1

/-- A manager that is started so and shut down at an instant does not panic: at its semaphore, its
timers or the deadline of the shutdown. -/
structure Usable (now : Int) (c : Config) : Prop where
  slots : 1 ≤ c.maxConcurrency ∧ c.maxConcurrency ≤ maxPermits
  memory : 0 < c.memoryInterval
  sweep : 0 < c.sweepInterval
  deadline : now + (c.shutdownTimeout / 1000 : Nat) ≤ maxSeconds

variable {program : String} {env : Environment} {c : Config}

theorem FromVariables.positive (h : c.FromVariables program env) :
    0 < c.maxConcurrency ∧ 0 < c.memoryInterval ∧ 0 < c.sweepInterval := by
  refine ⟨?_, ?_, ?_⟩
  · rcases h.maxConcurrency with given | ⟨-, same⟩ <;> omega
  · rcases h.memoryInterval with given | ⟨-, same⟩ <;> omega
  · rcases h.sweepInterval with ⟨s, given, same⟩ | ⟨-, same⟩ <;> omega

theorem FromVariables.slots_iff (h : c.FromVariables program env) :
    c.maxConcurrency ≤ maxPermits ↔ ∀ n, env.Spells "MAX_CONCURRENCY" n → n ≤ maxPermits := by
  rw [h.maxConcurrency.forall_iff (P := (· ≤ maxPermits)) fun a b ha hb => ha.2.unique hb.2]
  constructor
  · intro bound n spells
    rcases Nat.eq_zero_or_pos n with rfl | positive
    · exact Nat.zero_le _
    · exact bound.1 n ⟨positive, spells⟩
  · exact fun bound => ⟨fun n given => bound n given.2, fun _ => by decide⟩

theorem FromVariables.deadline_iff (h : c.FromVariables program env) (now : Int) :
    now + (c.shutdownTimeout / 1000 : Nat) ≤ maxSeconds ↔
      (∀ s, env.Spells "SHUTDOWN_TIMEOUT_SECS" s → now + s ≤ maxSeconds) ∧
      ((∀ s, ¬env.Spells "SHUTDOWN_TIMEOUT_SECS" s) → now + 30 ≤ maxSeconds) := by
  have unique (a b : Nat) : (∃ s, env.Spells "SHUTDOWN_TIMEOUT_SECS" s ∧ a = s * 1000) →
      (∃ s, env.Spells "SHUTDOWN_TIMEOUT_SECS" s ∧ b = s * 1000) → a = b := by
    rintro ⟨s, hs, rfl⟩ ⟨t, ht, rfl⟩
    rw [hs.unique ht]
  rw [h.shutdownTimeout.forall_iff (P := fun t => now + (t / 1000 : Nat) ≤ maxSeconds) unique]
  constructor
  · rintro ⟨given, default⟩
    refine ⟨fun s spells => ?_, fun none => ?_⟩
    · have := given _ ⟨s, spells, rfl⟩
      rwa [Nat.mul_div_cancel _ (by decide)] at this
    · exact default fun t ⟨s, spells, _⟩ => none s spells
  · rintro ⟨given, default⟩
    refine ⟨?_, fun none => default fun s spells => none _ ⟨s, spells, rfl⟩⟩
    rintro _ ⟨s, spells, rfl⟩
    rw [Nat.mul_div_cancel _ (by decide)]
    exact given s spells

variable (program env)

/-- Each field comes from its variable or is its default; a manager panics exactly if the slots are
too many or the time for the shutdown too long. -/
theorem ofEnvironment_usable_iff :
    (∀ c : Config, c.FromVariables program env ↔ c = ofEnvironment program env) ∧
    (0 < (ofEnvironment program env).maxConcurrency ∧
      0 < (ofEnvironment program env).memoryInterval ∧
      0 < (ofEnvironment program env).sweepInterval) ∧
    ∀ now : Int, (ofEnvironment program env).Usable now ↔
      (∀ n, env.Spells "MAX_CONCURRENCY" n → n ≤ maxPermits) ∧
      (∀ s, env.Spells "SHUTDOWN_TIMEOUT_SECS" s → now + s ≤ maxSeconds) ∧
      ((∀ s, ¬env.Spells "SHUTDOWN_TIMEOUT_SECS" s) → now + 30 ≤ maxSeconds) := by
  have fields : (ofEnvironment program env).FromVariables program env := fromVariables_iff.mpr rfl
  refine ⟨fun _ => fromVariables_iff, fields.positive, fun now => ?_⟩
  rw [← fields.slots_iff, ← fields.deadline_iff]
  constructor
  · exact fun usable => ⟨usable.slots.2, usable.deadline⟩
  · rintro ⟨slots, deadline⟩
    obtain ⟨concurrency, memory, sweep⟩ := fields.positive
    exact ⟨⟨concurrency, slots⟩, memory, sweep, deadline⟩

/-- A number of 64 bits is taken as it is, although no semaphore has so many permits and no
instant is so late. -/
theorem greatest_numbers_not_usable :
    (ofEnvironment "worker"
      [("MAX_CONCURRENCY", Text.utf8 "18446744073709551615")]).maxConcurrency = maxNatural ∧
    ¬(ofEnvironment "worker"
      [("MAX_CONCURRENCY", Text.utf8 "18446744073709551615")]).Usable 0 ∧
    ¬(ofEnvironment "worker"
      [("SHUTDOWN_TIMEOUT_SECS", Text.utf8 "18446744073709551615")]).Usable 0 := by
  have slots : (ofEnvironment "worker"
      [("MAX_CONCURRENCY", Text.utf8 "18446744073709551615")]).maxConcurrency = maxNatural := by
    decide +kernel
  have timeout : (ofEnvironment "worker"
      [("SHUTDOWN_TIMEOUT_SECS", Text.utf8 "18446744073709551615")]).shutdownTimeout =
        maxNatural * 1000 := by
    decide +kernel
  refine ⟨slots, fun usable => ?_, fun usable => ?_⟩
  · have := usable.slots.2
    rw [slots] at this
    exact absurd this (by decide)
  · have := usable.deadline
    rw [timeout] at this
    exact absurd this (by decide)

end Config

end TaskFlow
