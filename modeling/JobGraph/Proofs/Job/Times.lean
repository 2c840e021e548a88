import JobGraph.Job.Basic
import JobGraph.Proofs.Containers
import JobGraph.Proofs.DependencyOrder
import JobGraph.Proofs.Number.Rounding

/-!
# Times of accepted jobs

A number of seconds is looked at before it is rounded to nanoseconds.  Whoever uses the settings of
an accepted job gets the very lengths of time that were found when it was checked, and none of them
is the longest one, which stands for too long a time (`accepted_times_are_as_checked`).  But a
positive number of no more than half a nanosecond is accepted and comes to nothing.
-/

namespace JobGraph

namespace Binary64

/-! ## The exact value of a magnitude -/

theorem ratio_pos (magnitude : Nat) : 0 < (ratio magnitude).2 := by
  unfold ratio
  dsimp only
  split
  · exact Nat.one_pos
  · exact Nat.two_pow_pos _

theorem ratio_eq_valueOf (magnitude : Nat) :
    ((ratio magnitude).1 : ℚ) / (ratio magnitude).2 = valueOf magnitude := by
  unfold ratio valueOf
  dsimp only
  split
  next sign => rw [Nat.cast_mul, cast_twoTo_toNat sign, Nat.cast_one, div_one]
  next sign =>
    rw [cast_twoTo_toNat (by omega), zpow_neg]
    field_simp

/-! ## Rounding to whole numbers -/

/-- A quotient is rounded up from zero if it is more than a half, a half itself going to zero. -/
theorem roundDiv_pos_iff (numerator : Nat) {denominator : Nat} (positive : 0 < denominator) :
    0 < roundDiv numerator denominator ↔ denominator < 2 * numerator := by
  have parts := Nat.div_add_mod numerator denominator
  unfold roundDiv
  generalize numerator / denominator = whole at parts ⊢
  generalize numerator % denominator = remainder at parts ⊢
  dsimp only
  cases whole with
  | zero =>
    rw [Nat.mul_zero, Nat.zero_add] at parts
    split_ifs <;> omega
  | succ whole =>
    rw [Nat.mul_succ] at parts
    split_ifs <;> omega

theorem roundDiv_le (numerator denominator : Nat) :
    roundDiv numerator denominator ≤ numerator / denominator + 1 := by
  unfold roundDiv
  dsimp only
  split_ifs <;> omega

theorem roundDiv_one (numerator : Nat) : roundDiv numerator 1 = numerator := by
  unfold roundDiv
  dsimp only
  split_ifs <;> omega

end Binary64

namespace Duration

open Binary64 (ratio valueOf)

variable {seconds : Binary64} {duration : Duration}

/-! ## Seconds and nanoseconds -/

/-- A magnitude of seconds is some nanoseconds if it is more than half a one. -/
theorem roundSeconds_pos_iff (magnitude : Nat) :
    0 < roundSeconds magnitude ↔ 1 / 2 < valueOf magnitude * nanosecondsPerSecond := by
  have positive : (0 : ℚ) < (ratio magnitude).2 := by exact_mod_cast Binary64.ratio_pos magnitude
  rw [← Binary64.ratio_eq_valueOf, div_mul_eq_mul_div, lt_div_iff₀ positive]
  have scaled : 1 / 2 * ((ratio magnitude).2 : ℚ) <
      (ratio magnitude).1 * nanosecondsPerSecond ↔
        (ratio magnitude).2 < 2 * ((ratio magnitude).1 * nanosecondsPerSecond) := by
    rw [← Nat.cast_lt (α := ℚ)]
    push_cast
    constructor <;> intro less <;> linarith
  rw [scaled]
  exact Binary64.roundDiv_pos_iff _ (Binary64.ratio_pos magnitude)

/-- The longest length of time ends within a second, and numbers of that size are whole. -/
theorem roundSeconds_ne_maximum (magnitude : Nat) :
    roundSeconds magnitude ≠ maximum.nanoseconds := by
  have small := Binary64.mantissa_lt magnitude
  have longest : maximum.nanoseconds = 2 ^ 64 * 1000000000 - 1 := rfl
  rw [longest]
  unfold roundSeconds ratio
  by_cases sign : 0 ≤ Binary64.exponent magnitude
  · simp only [if_pos sign, Binary64.roundDiv_one]
    unfold nanosecondsPerSecond
    omega
  · simp only [if_neg sign]
    obtain ⟨places, same⟩ : ∃ places, (-Binary64.exponent magnitude).toNat = places + 1 :=
      ⟨(-Binary64.exponent magnitude).toNat - 1, by omega⟩
    have two : 2 ≤ twoTo (-Binary64.exponent magnitude).toNat := by
      rw [same, Binary64.twoTo_eq, Nat.pow_succ]
      have := Nat.two_pow_pos places
      omega
    have rounded := Binary64.roundDiv_le (Binary64.mantissa magnitude * nanosecondsPerSecond)
      (twoTo (-Binary64.exponent magnitude).toNat)
    have half : Binary64.mantissa magnitude * nanosecondsPerSecond /
        twoTo (-Binary64.exponent magnitude).toNat ≤
          Binary64.mantissa magnitude * nanosecondsPerSecond / 2 :=
      Nat.div_le_div_left two Nat.two_pos
    unfold nanosecondsPerSecond at rounded half ⊢
    omega

theorem ofSeconds?_eq_some (found : ofSeconds? seconds = some duration) :
    duration = ⟨roundSeconds seconds.magnitudeBits⟩ := by
  unfold ofSeconds? at found
  generalize maximum = longest at found
  dsimp only at found
  split_ifs at found
  exact (Option.some.inj found).symm

theorem ne_maximum_of_ofSeconds? (found : ofSeconds? seconds = some duration) :
    duration ≠ maximum := by
  rw [ofSeconds?_eq_some found]
  intro same
  apply roundSeconds_ne_maximum seconds.magnitudeBits
  rw [← same]

theorem roundSeconds_zero : roundSeconds 0 = 0 := by decide +kernel

/-- Nobody but a check refuses a time within a bound, so whoever uses it finds it again. -/
theorem saturating_of_within {bound : Bound} (within : Settings.isWithin bound seconds = true)
    (found : ofSeconds? seconds = some duration) : saturating seconds = duration := by
  obtain ⟨finite, sign⟩ := Bool.and_eq_true_iff.1 within
  have number : seconds.isNaN = false := by
    unfold Binary64.isNaN
    unfold Binary64.isFinite at finite
    simp only [decide_eq_true_eq, decide_eq_false_iff_not] at finite ⊢
    omega
  unfold saturating
  by_cases zero : seconds.isZero = true
  · have nothing : seconds.magnitudeBits = 0 := by simpa [Binary64.isZero] using zero
    rw [zero, Bool.or_true, Bool.true_or, if_pos rfl, ofSeconds?_eq_some found, nothing,
      roundSeconds_zero, Duration.zero]
  · have positive : seconds.isNegative = false := by
      cases bound <;> simp_all
    rw [number, positive, Bool.eq_false_iff.2 zero, found]
    rfl

end Duration

/-! ## Accepted jobs -/

namespace Settings

theorem checkSeconds_eq_ok {field : String} {bound : Bound} {value : Binary64}
    (ok : checkSeconds field bound value = .ok ()) :
    isWithin bound value = true ∧ ∃ duration, Duration.ofSeconds? value = some duration := by
  unfold checkSeconds at ok
  split_ifs at ok with refused long
  exact ⟨by simpa using refused, Option.ne_none_iff_exists'.1 (by simpa using long)⟩

/-- What a check of a time lets pass is used as it was found. -/
theorem saturating_of_checkSeconds {field : String} {bound : Bound} {value : Binary64}
    (ok : checkSeconds field bound value = .ok ()) :
    Duration.ofSeconds? value = some (Duration.saturating value) ∧
      Duration.saturating value ≠ .maximum ∧
      (0 < (Duration.saturating value).nanoseconds ↔
        1 / 2 < Binary64.valueOf value.magnitudeBits * Duration.nanosecondsPerSecond) := by
  obtain ⟨within, duration, found⟩ := checkSeconds_eq_ok ok
  rw [Duration.saturating_of_within within found]
  refine ⟨found, Duration.ne_maximum_of_ofSeconds? found, ?_⟩
  rw [Duration.ofSeconds?_eq_some found]
  exact Duration.roundSeconds_pos_iff _

/-- The settings that pass have a name for a file, and their times pass one by one. -/
theorem check_eq_ok {settings : Settings} (ok : settings.check = .ok ()) :
    isFileName settings.name = true ∧
      checkSeconds "checkpoint_interval_seconds" .positive settings.checkpointInterval = .ok () ∧
      checkSeconds "tick_interval_seconds" .positive settings.tickInterval = .ok () ∧
      checkSeconds "abort_grace_seconds" .nonNegative settings.abortGrace = .ok () := by
  unfold check at ok
  dsimp only at ok
  split at ok
  · cases ok
  next named =>
    obtain ⟨_, checkpoint, ok⟩ := exists_of_bind ok
    obtain ⟨_, tick, grace⟩ := exists_of_bind ok
    exact ⟨by simpa using named, checkpoint, tick, grace⟩

end Settings

/-- A definition is accepted exactly if it has tasks, its settings pass, each task passes, and the
tasks make a graph. -/
theorem Definition.check_eq_ok_iff {definition : Definition} {job : Job} :
    definition.check = .ok job ↔
      definition.tasks.isEmpty = false ∧ definition.settings.check = .ok () ∧
        job.settings = definition.settings ∧
        ∃ tasks, (definition.tasks.entries.mapM fun entry => entry.2.check entry.1) = .ok tasks ∧
          Graph.ofTasks tasks = .ok job.graph := by
  unfold check
  dsimp only
  constructor
  · intro accepted
    split at accepted
    · cases accepted
    next some_ =>
      obtain ⟨_, checked, accepted⟩ := exists_of_bind accepted
      obtain ⟨tasks, each, accepted⟩ := exists_of_bind accepted
      obtain ⟨graph, made, accepted⟩ := exists_of_bind accepted
      cases accepted
      exact ⟨Bool.eq_false_iff.2 some_, checked, rfl, tasks, each, made⟩
  · rintro ⟨some_, checked, settings, tasks, each, made⟩
    obtain ⟨_, graph⟩ := job
    cases settings
    rw [if_neg (Bool.eq_false_iff.1 some_), checked, each]
    change Graph.ofTasks tasks >>= _ = _
    rw [made]
    rfl

/-- The times that an accepted job runs with are the ones that its numbers of seconds were found to
be when the definition was checked, and none is the longest one.  An interval is longer than nothing
exactly if it is more than half a nanosecond. -/
theorem accepted_times_are_as_checked {definition : Definition} {job : Job}
    (accepted : definition.check = .ok job) :
    (Duration.ofSeconds? definition.settings.checkpointInterval =
        some job.settings.checkpointEvery ∧
      Duration.ofSeconds? definition.settings.tickInterval = some job.settings.tickEvery ∧
      Duration.ofSeconds? definition.settings.abortGrace = some job.settings.grace) ∧
    (job.settings.checkpointEvery ≠ .maximum ∧ job.settings.tickEvery ≠ .maximum ∧
      job.settings.grace ≠ .maximum) ∧
    (0 < job.settings.checkpointEvery.nanoseconds ↔
      1 / 2 < Binary64.valueOf definition.settings.checkpointInterval.magnitudeBits *
        Duration.nanosecondsPerSecond) ∧
    (0 < job.settings.tickEvery.nanoseconds ↔
      1 / 2 < Binary64.valueOf definition.settings.tickInterval.magnitudeBits *
        Duration.nanosecondsPerSecond) := by
  obtain ⟨-, checked, same, -⟩ := Definition.check_eq_ok_iff.1 accepted
  obtain ⟨-, checkpoint, tick, grace⟩ := Settings.check_eq_ok checked
  obtain ⟨checkpointFound, checkpointShort, checkpointLong⟩ :=
    Settings.saturating_of_checkSeconds checkpoint
  obtain ⟨tickFound, tickShort, tickLong⟩ := Settings.saturating_of_checkSeconds tick
  obtain ⟨graceFound, graceShort, -⟩ := Settings.saturating_of_checkSeconds grace
  rw [same]
  exact ⟨⟨checkpointFound, tickFound, graceFound⟩, ⟨checkpointShort, tickShort, graceShort⟩,
    checkpointLong, tickLong⟩

/-- The definition of a job of one task, which sleeps for no time. -/
def Definition.lone : Definition where
  settings := .default
  tasks := .ofList
    [("a", { TaskEntry.ofVariant "Sleep" with parameters := .obj [("seconds", .int 0)] })]

theorem Definition.lone_tasks :
    (lone.tasks.entries.mapM fun entry => TaskEntry.check entry.1 entry.2) =
      .ok Graph.loneTasks := by decide +kernel

/-- A definition that asks for a checkpoint every tenth of a nanosecond. -/
def Definition.hasty : Definition :=
  { Definition.lone with
    settings := { Settings.default with checkpointInterval := .ofDecimal false 1 (-10) } }

/-- The job of that definition. -/
def Job.hasty : Job := ⟨Definition.hasty.settings, .lone⟩

/-- A positive interval is accepted and comes to nothing, and the other times are kept. -/
theorem hasty_job_is_accepted :
    Definition.hasty.check = .ok .hasty ∧
      Settings.isWithin .positive Definition.hasty.settings.checkpointInterval = true ∧
      Job.hasty.settings.checkpointEvery = .zero ∧
      ¬ 1 / 2 < Binary64.valueOf Definition.hasty.settings.checkpointInterval.magnitudeBits *
        Duration.nanosecondsPerSecond ∧
      Duration.ofSeconds? Definition.hasty.settings.tickInterval =
        some Job.hasty.settings.tickEvery ∧
      Job.hasty.settings.grace ≠ .maximum := by
  have checked : Definition.hasty.settings.check = .ok () := by decide +kernel
  have accepted : Definition.hasty.check = .ok .hasty :=
    Definition.check_eq_ok_iff.2
      ⟨rfl, checked, rfl, _, Definition.lone_tasks, Graph.lone_accepted⟩
  have positive : Settings.isWithin .positive Definition.hasty.settings.checkpointInterval :=
    by decide +kernel
  have nothing : Job.hasty.settings.checkpointEvery = .zero := by decide +kernel
  obtain ⟨⟨-, tick, -⟩, ⟨-, -, grace⟩, long, -⟩ := accepted_times_are_as_checked accepted
  rw [nothing] at long
  exact ⟨accepted, positive, nothing, fun more => Nat.lt_irrefl 0 (long.2 more), tick, grace⟩

end JobGraph
