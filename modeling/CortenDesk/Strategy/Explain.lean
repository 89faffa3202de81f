import CortenDesk.Strategy.Consistency
import CortenDesk.Strategy.Delivery

/-!
The inspector of the effective strategy: the walk of the precedence once more, with a step
for each level. It loads the strategies as models, so one of the recycle bin is none,
where a resolution joins the tables; and it takes the first assignment and the first
default, enabled or not. The two agree when a target has one assignment at each level, a
deleted strategy is disabled and one strategy at most is the default.
-/
namespace CortenDesk
namespace Strategy

inductive StepState
  | unset
  | none
  | disabled
  | overridden
  | applied
  deriving DecidableEq, Repr

/-- A level of the walk; the default has none. -/
structure Step where
  level : Option StrategyLevel
  label : String
  target : Option String
  strategy : Option Strategy
  state : StepState
  deriving DecidableEq

structure Explanation where
  steps : List Step
  winner : Option Step
  resolved : Option Strategy
  ackedAt : Option Stamp

structure Candidate where
  level : StrategyLevel
  label : String
  target : Option String
  targetId : Option Nat

def candidates (db : Database) (device : Device) : List Candidate := [
  ⟨.device, "This device", some device.rustdeskId, some device.id⟩,
  ⟨.user, "Owner", (device.userId.bind db.users.find?).map User.username, device.userId⟩,
  ⟨.deviceGroup, "Device group", (device.deviceGroupId.bind db.deviceGroups.find?).map
    DeviceGroup.name, device.deviceGroupId⟩]

/-- The steps so far, and the one that applies. -/
abbrev Walk := List Step × Option Step

def stateOf (winner : Option Step) : Option Strategy → StepState
  | none => .none
  | some strategy =>
      if ! strategy.enabled then .disabled
      else if winner.isSome then .overridden
      else .applied

def Walk.add (walk : Walk) (step : Step) : Walk :=
  (walk.1 ++ [step], if step.state = .applied then some step else walk.2)

def assignedStrategy (db : Database) (candidate : Candidate) : Option Strategy :=
  candidate.targetId.bind fun targetId =>
    (assignedStrategyId db candidate.level targetId).bind (find db.strategies.rows)

def explainCandidate (db : Database) (walk : Walk) (candidate : Candidate) : Walk :=
  let strategy := assignedStrategy db candidate
  walk.add
    { level := some candidate.level
      label := candidate.label
      target := candidate.target
      strategy
      state := if candidate.targetId.isNone then .unset else stateOf walk.2 strategy }

def explainDefault (db : Database) (walk : Walk) : Walk :=
  let default := db.strategies.rows.find? fun strategy => ! strategy.trashed && strategy.isDefault
  walk.add
    { level := none
      label := "Default strategy"
      target := none
      strategy := default
      state := stateOf walk.2 default }

def explainFor (db : Database) (device : Device) : Explanation :=
  let walk := explainDefault db ((candidates db device).foldl (explainCandidate db) ([], none))
  { steps := walk.1
    winner := walk.2
    resolved := device.strategyIdResolved.bind (find db.strategies.rows)
    ackedAt := device.strategyAckedAt }

/-- The id of the winner's strategy. -/
def Explanation.winnerId (explanation : Explanation) : Option Nat :=
  (explanation.winner.bind Step.strategy).map Strategy.id

def Explanation.appliedSteps (explanation : Explanation) : Nat :=
  explanation.steps.countP fun step => decide (step.state = .applied)

/-- What both walks take from a level. -/
def enabledId (strategy : Option Strategy) : Option Nat :=
  (strategy.filter fun strategy => strategy.enabled).map Strategy.id

/-- A walk that found this much: the winner is it, and one step is applied for it. -/
structure Walked (walk : Walk) (found : Option Nat) : Prop where
  winner : (walk.2.bind Step.strategy).map Strategy.id = found
  isSome : walk.2.isSome = found.isSome
  applied : walk.1.countP (fun step => decide (step.state = .applied)) = found.toList.length

theorem walked_nil : Walked ([], none) none := ⟨rfl, rfl, rfl⟩

/-- A step at a level: it applies when nothing was found before and its strategy is enabled. -/
theorem Walked.add {walk : Walk} {found : Option Nat} (h : Walked walk found) {step : Step}
    (state : step.state = stateOf walk.2 step.strategy ∨
      step.strategy = none ∧ step.state = .unset) :
    Walked (walk.add step) (found.or (enabledId step.strategy)) := by
  by_cases applies : step.state = .applied
  · have known : step.state = stateOf walk.2 step.strategy :=
      state.resolve_right fun unset => by simp [unset.2] at applies
    rw [applies] at known
    cases strategy : step.strategy with
    | none => simp [strategy, stateOf] at known
    | some taken =>
        have first : walk.2 = none ∧ taken.enabled = true := by
          simp only [strategy, stateOf] at known
          split at known
          · cases known
          · split at known
            · cases known
            · next enabled unwon => exact ⟨by simpa using unwon, by simpa using enabled⟩
        have nothing : found = none := by
          have isSome := h.isSome
          rw [first.1] at isSome
          simpa using isSome.symm
        have before := h.applied
        rw [nothing] at before
        have taken' : enabledId (some taken) = some taken.id := by
          simp [enabledId, first.2]
        rw [nothing, Option.none_or, taken']
        refine ⟨?_, ?_, ?_⟩
        · simp [Walk.add, applies, strategy]
        · simp [Walk.add, applies]
        · simp [Walk.add, applies, before]
  · have skips : found.or (enabledId step.strategy) = found := by
      cases earlier : found with
      | some id => rfl
      | none =>
          have unwon : walk.2 = none := by
            have isSome := h.isSome
            rw [earlier] at isSome
            simpa using isSome
          rw [Option.none_or]
          rcases state with known | ⟨unset, _⟩
          · cases strategy : step.strategy with
            | none => rfl
            | some skipped =>
                have disabled : skipped.enabled = false := by
                  by_contra enabled
                  apply applies
                  simp [known, strategy, stateOf, unwon, enabled]
                simp [enabledId, disabled]
          · rw [unset]
            rfl
    rw [skips]
    refine ⟨?_, ?_, ?_⟩
    · simp [Walk.add, applies, h.winner]
    · simp [Walk.add, applies, h.isSome]
    · simp [Walk.add, applies, h.applied]

theorem walked_explainCandidate (db : Database) {walk : Walk} {found : Option Nat}
    (h : Walked walk found) (candidate : Candidate) :
    Walked (explainCandidate db walk candidate)
      (found.or (enabledId (assignedStrategy db candidate))) := by
  refine h.add ?_
  cases target : candidate.targetId with
  | none => exact .inr ⟨by simp [assignedStrategy, target], by simp⟩
  | some targetId => exact .inl (by simp)

theorem walked_explainDefault (db : Database) {walk : Walk} {found : Option Nat}
    (h : Walked walk found) :
    Walked (explainDefault db walk) (found.or (enabledId (db.strategies.rows.find?
      fun strategy => ! strategy.trashed && strategy.isDefault))) :=
  h.add (.inl rfl)

/-- What the assignments and the deletions keep of the strategies and the pivots. -/
structure Assignable (db : Database) : Prop where
  single : ∀ level, ((db.pivot level).map Prod.fst).Nodup
  deleted : ∀ strategy ∈ db.strategies.rows, strategy.trashed → strategy.enabled = false

theorem find_eq (db : Database) (id : Nat) :
    find db.strategies.rows id = (db.strategies.find? id).filter (! ·.trashed) := by
  cases found : db.strategies.find? id with
  | none =>
      have absent := db.strategies.find?_eq_none_iff.mp found
      simp only [find, Option.filter_none, List.find?_eq_none]
      exact fun row hr is => absent row hr (of_decide_eq_true is).1
  | some strategy =>
      obtain ⟨mem, rfl⟩ := db.strategies.find?_eq_some_iff.mp found
      have one := db.strategies.filter_id_eq mem
      calc find db.strategies.rows (Row.id strategy)
          = (db.strategies.rows.filter fun row => decide (Row.id row = Row.id strategy)).find?
              (! ·.trashed) := by
            rw [List.find?_filter, find]
            refine List.find?_congr fun row _ => ?_
            simp only [Bool.not_eq_true, decide_eq_true_eq, Bool.not_eq_true']
            rfl
        _ = (some strategy).filter (! ·.trashed) := by
            rw [one, Option.filter_some, List.find?_singleton]

/-- One assignment at most: the joined row is the assigned one, if it is enabled. -/
theorem enabledAt_eq {db : Database} (h : Assignable db) (level : StrategyLevel)
    (targetId : Nat) :
    db.enabledAt level targetId =
      enabledId ((assignedStrategyId db level targetId).bind (find db.strategies.rows)) := by
  have join (id : Nat) : ((db.strategies.find? id).filter fun strategy => strategy.enabled).map
      Strategy.id = enabledId (find db.strategies.rows id) := by
    rw [find_eq, enabledId]
    cases found : db.strategies.find? id with
    | none => rfl
    | some strategy =>
        have mem := (db.strategies.find?_eq_some_iff.mp found).1
        cases trashed : strategy.trashed with
        | false => simp [Option.filter_some, trashed]
        | true => simp [Option.filter_some, trashed, h.deleted strategy mem trashed]
  simp only [Database.enabledAt, join, assignedStrategyId]
  have single := h.single level
  revert single
  generalize db.pivot level = rows
  intro single
  induction rows with
  | nil => rfl
  | cons row rows ih =>
      obtain ⟨alone, single⟩ := List.nodup_cons.mp single
      by_cases own : row.1 = targetId
      · subst own
        have rest : (rows.findSome? fun other =>
            if other.1 = row.1 then enabledId (find db.strategies.rows other.2) else none) =
              none := by
          rw [List.findSome?_eq_none_iff]
          intro other ho
          have apart : other.1 ≠ row.1 := fun same => alone (same ▸ List.mem_map_of_mem ho)
          rw [if_neg apart]
        rw [List.findSome?_cons, if_pos rfl, rest, List.find?_cons_of_pos (by simp),
          Option.map_some, Option.bind_some]
        cases enabledId (find db.strategies.rows row.2) <;> rfl
      · rw [List.findSome?_cons, if_neg own, List.find?_cons_of_neg (by simpa using own)]
        exact ih single

theorem defaultStrategy_eq {db : Database} (h : OneDefault db.strategies) :
    db.defaultStrategy = enabledId (db.strategies.rows.find?
      fun strategy => ! strategy.trashed && strategy.isDefault) := by
  rw [Database.defaultStrategy, enabledId]
  congr 1
  cases found : db.strategies.rows.find? fun strategy => ! strategy.trashed && strategy.isDefault with
  | none =>
      rw [List.find?_eq_none] at found
      simp only [Option.filter_none, List.find?_eq_none]
      intro row hr selected
      exact found row hr (Bool.and_eq_true_iff.mp selected).1
  | some strategy =>
      have mem := List.mem_of_find?_eq_some found
      have selected : strategy.trashed = false ∧ strategy.isDefault = true := by
        simpa using List.find?_some found
      have only : ∀ row ∈ db.strategies.rows, row.trashed = false → row.isDefault = true →
          row = strategy := fun row hr kept isDefault =>
        db.strategies.eq_of_id_eq hr mem
          (h row hr strategy mem kept selected.1 isDefault selected.2)
      rw [Option.filter_some]
      cases enabled : strategy.enabled with
      | true =>
          simp only [↓reduceIte]
          cases again : db.strategies.rows.find? _ with
          | none =>
              rw [List.find?_eq_none] at again
              exact absurd (by simp [selected, enabled]) (again strategy mem)
          | some row =>
              have taken := List.find?_some again
              simp only [Bool.and_eq_true, Bool.not_eq_true'] at taken
              rw [only row (List.mem_of_find?_eq_some again) taken.1.1 taken.1.2]
      | false =>
          simp only [Bool.false_eq_true, ↓reduceIte, List.find?_eq_none]
          intro row hr taken
          simp only [Bool.and_eq_true, Bool.not_eq_true'] at taken
          rw [only row hr taken.1.1 taken.1.2, enabled] at taken
          cases taken.2

/-- What a level or the default gives is an enabled strategy outside the recycle bin. -/
theorem anyEnabled_of_enabledAt {db : Database} (h : Assignable db) {level : StrategyLevel}
    {targetId id : Nat} (found : db.enabledAt level targetId = some id) : db.anyEnabled := by
  obtain ⟨row, _, taken⟩ := List.exists_of_findSome?_eq_some found
  split at taken
  · obtain ⟨strategy, joined, _⟩ := Option.map_eq_some_iff.mp taken
    obtain ⟨present, enabled⟩ := Option.filter_eq_some_iff.mp joined
    have mem := (db.strategies.find?_eq_some_iff.mp present).1
    have kept : strategy.trashed = false := by
      by_contra trashed
      have disabled := h.deleted strategy mem (by simpa using trashed)
      exact Bool.false_ne_true (disabled.symm.trans enabled)
    exact List.any_eq_true.mpr ⟨strategy, mem, by simp [kept, enabled]⟩
  · cases taken

theorem anyEnabled_of_defaultStrategy {db : Database} {id : Nat}
    (found : db.defaultStrategy = some id) : db.anyEnabled := by
  obtain ⟨strategy, taken, _⟩ := Option.map_eq_some_iff.mp found
  have selected := List.find?_some taken
  simp only [Bool.and_eq_true, Bool.not_eq_true'] at selected
  exact List.any_eq_true.mpr ⟨strategy, List.mem_of_find?_eq_some taken, by simp [selected]⟩

/-- So without an enabled strategy the walk of the precedence finds none. -/
theorem resolveAfresh_eq_byPrecedence {db : Database} (h : Assignable db) (device : Device) :
    resolveAfresh db device = db.byPrecedence device := by
  rw [resolveAfresh_eq]
  split
  · rfl
  · next idle =>
    symm
    rw [Option.eq_none_iff_forall_ne_some]
    intro id found
    apply idle
    rcases Option.or_eq_some_iff.mp found with candidate | ⟨_, default⟩
    · obtain ⟨candidate, _, taken⟩ := List.exists_of_findSome?_eq_some candidate
      obtain ⟨targetId, _, taken⟩ := Option.bind_eq_some_iff.mp taken
      exact anyEnabled_of_enabledAt h taken
    · exact anyEnabled_of_defaultStrategy default

theorem enabledId_assignedStrategy {db : Database} (h : Assignable db) (candidate : Candidate) :
    enabledId (assignedStrategy db candidate) =
      candidate.targetId.bind (db.enabledAt candidate.level) := by
  cases target : candidate.targetId with
  | none => simp [assignedStrategy, target, enabledId]
  | some targetId => simp [assignedStrategy, target, enabledAt_eq h]

/-- The inspector's walk finds what a resolution finds. -/
theorem walked_explainFor {db : Database} (h : Assignable db) (oneDefault : OneDefault db.strategies)
    (device : Device) :
    Walked ((explainFor db device).steps, (explainFor db device).winner)
      (resolveAfresh db device) := by
  have visited (candidates : List Candidate) : ∀ {walk : Walk} {found : Option Nat},
      Walked walk found → Walked (candidates.foldl (explainCandidate db) walk)
        (found.or (candidates.findSome? fun candidate =>
          candidate.targetId.bind (db.enabledAt candidate.level))) := by
    induction candidates with
    | nil =>
        intro walk found walked
        simpa using walked
    | cons candidate candidates ih =>
        intro walk found walked
        have next := ih (walked_explainCandidate db walked candidate)
        rw [enabledId_assignedStrategy h] at next
        rw [List.foldl_cons, List.findSome?_cons]
        convert next using 1
        cases candidate.targetId.bind (db.enabledAt candidate.level) <;> simp
  have whole := walked_explainDefault db (visited (candidates db device) walked_nil)
  rw [← defaultStrategy_eq oneDefault, Option.none_or] at whole
  rw [resolveAfresh_eq_byPrecedence h]
  exact whole

end Strategy
end CortenDesk
