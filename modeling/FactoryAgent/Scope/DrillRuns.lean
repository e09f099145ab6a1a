import FactoryAgent.Scope.Drill

/-!
# Drills over the processes of the service

The processes share the durable rows and nothing else. One of them accepts a click; any of them may win
the claim of the pending row, and processes start and restart in between. The theorem is about all
these runs: as long as a drill is claimed by a process that still holds its payload, and the payload is
one that can be carried, the run that answers a click answers for the row that was clicked.
-/

/-! ## The machine -/

/-- **A run that was claimed**: the turn it asks for, and the filters it hands to its runner. -/
structure DrilledRun where
  interactionId : Nat
  turn : Except TurnEnd Turn
  filters : Except TurnEnd NarrowedFilters

/-- `_pipeline` and `_authorize_request` for a run with the payload that its process holds. -/
def DrilledRun.of (interactionId : Nat) (drill : Option DrillPayload) (reading : RunReading)
    (authorization : ResolvedAuthorization) : DrilledRun where
  interactionId := interactionId
  turn := reading.route drill
  filters := reading.route drill >>= Turn.filters reading.turn authorization

/-- **The processes and the rows they share.** `clicked` records which interaction was accepted with
which drill; no process reads it. -/
structure DrillWorld where
  /-- The drill requests that each process holds. -/
  processes : List (List (Nat × DrillPayload)) := []
  nextId : Nat := 0
  pending : List Nat := []
  clicked : List (Nat × DrillPayload) := []
  runs : List DrilledRun := []

/-- What happens to the processes and the rows. -/
inductive DrillAction where
  | boot
  | restart (process : Nat)
  | start (process : Nat) (drill : Option DrillPayload)
  /-- a sweep fails a pending row -/
  | sweep (interactionId : Nat)
  | claim (process : Nat) (interactionId : Nat) (reading : RunReading)
      (authorization : ResolvedAuthorization)

namespace DrillWorld

/-- `start`: the row is persisted, then the payload is kept. A drill that is not valid is refused
first. -/
def start (world : DrillWorld) (process : Nat) (drill : Option DrillPayload) : Option DrillWorld :=
  match world.processes[process]? with
  | none => none
  | some requests =>
    let accepted :=
      { world with nextId := world.nextId + 1, pending := world.pending ++ [world.nextId] }
    match drill with
    | none => some accepted
    | some payload =>
      match payload.validateDrill with
      | .error _ => none
      | .ok _ => some { accepted with
          processes := world.processes.set process ((world.nextId, payload) :: requests)
          clicked := (world.nextId, payload) :: world.clicked }

/-- `stream`: the winner of the claim takes the payload out of its map and runs the interaction. -/
def claim (world : DrillWorld) (process interactionId : Nat) (reading : RunReading)
    (authorization : ResolvedAuthorization) : Option DrillWorld :=
  match world.processes[process]? with
  | none => none
  | some requests =>
    if interactionId ∈ world.pending then
      some { world with
        processes := world.processes.set process
          (requests.filter (fun entry => decide (entry.1 ≠ interactionId)))
        pending := world.pending.erase interactionId
        runs := world.runs ++
          [.of interactionId (requests.lookup interactionId) reading authorization] }
    else none

def step (world : DrillWorld) : DrillAction → Option DrillWorld
  | .boot => some { world with processes := world.processes ++ [[]] }
  | .restart process => some { world with processes := world.processes.set process [] }
  | .start process drill => world.start process drill
  | .sweep interactionId => some { world with pending := world.pending.erase interactionId }
  | .claim process interactionId reading authorization =>
    world.claim process interactionId reading authorization

/-- The payload that a process holds for an interaction. -/
def held (world : DrillWorld) (process interactionId : Nat) : Option DrillPayload :=
  world.processes[process]?.bind (fun requests => requests.lookup interactionId)

/-- **The guard**: a clicked drill is claimed by a process that holds its payload, and it can be
carried. -/
def Keeping (world : DrillWorld) : DrillAction → Prop
  | .claim process interactionId _ authorization =>
    ∀ payload ∈ world.clicked.lookup interactionId,
      (world.held process interactionId).isSome = true ∧ payload.Carriable authorization
  | _ => True

instance (world : DrillWorld) (action : DrillAction) : Decidable (world.Keeping action) := by
  cases action <;> dsimp only [Keeping] <;> infer_instance

end DrillWorld

/-- **The machine of the processes**, from no process at all. -/
def drillMachine : Machine DrillWorld DrillAction where
  init := {}
  step := DrillWorld.step

/-! ## One run -/

/-- A valid drill that reaches the branches of the pipeline is asked for as it is. -/
theorem RunReading.route_drill {reading : RunReading} {payload : DrillPayload} {turn : Turn}
    (hvalid : payload.validateDrill = .ok ()) (h : reading.route (some payload) = .ok turn) :
    turn = .drill payload := by
  obtain ⟨hchat, hanalysis⟩ := DrillPayload.capabilityId_ne_of_validateDrill hvalid
  unfold route at h
  split at h
  · cases h
  · obtain ⟨intent, hintent, h⟩ := Except.bind_eq_ok.mp h
    unfold RunReading.intent at hintent
    dsimp only at hintent
    split at hintent
    · cases hintent
    · cases hintent
      split at h
      · cases h
      · dsimp only [DrillPayload.intent] at h
        rw [if_neg hchat, if_neg hanalysis] at h
        exact (Except.ok.inj h).symm

/-- A run without a payload asks for no drill. -/
theorem RunReading.route_lost {reading : RunReading} {turn : Turn}
    (h : reading.route none = .ok turn) : ∀ payload, turn ≠ .drill payload := by
  rintro payload rfl
  unfold route at h
  split at h
  · cases h
  · obtain ⟨intent, -, h⟩ := Except.bind_eq_ok.mp h
    dsimp only at h
    split at h
    · cases h
    · split at h
      · cases h
      · split at h
        · cases h
        · split at h <;> cases h

/-- **A run answers for the clicked row**: it is refused, or it is the drill that was clicked, with all
that the drill narrows. -/
def DrilledRun.Faithful (run : DrilledRun) (payload : DrillPayload) : Prop :=
  ∀ filters, run.filters = .ok filters → run.turn = .ok (.drill payload) ∧ payload.Kept filters

/-- **When the run of a click answers for the clicked row**: it is refused, or its process held the
payload and the payload can be carried. -/
theorem DrilledRun.faithful_iff {interactionId : Nat} {payload : DrillPayload}
    {drill : Option DrillPayload} {reading : RunReading} {authorization : ResolvedAuthorization}
    (hvalid : payload.validateDrill = .ok ()) (hdrill : ∀ other ∈ drill, other = payload) :
    (DrilledRun.of interactionId drill reading authorization).Faithful payload ↔
      ∀ filters, (DrilledRun.of interactionId drill reading authorization).filters = .ok filters →
        drill.isSome = true ∧ payload.Carriable authorization := by
  have huid := DrillPayload.employeeUid_ne_empty (DrillPayload.of_validateDrill hvalid).2
  refine forall_congr' fun filters => imp_congr_right fun hfilters => ?_
  obtain ⟨turn, hroute, hturn⟩ := Except.bind_eq_ok.mp hfilters
  cases drill with
  | none =>
    refine ⟨fun h => ?_, fun h => by cases h.1⟩
    exact absurd (Except.ok.inj (hroute.symm.trans h.1)) (reading.route_lost hroute payload)
  | some other =>
    cases hdrill other rfl
    cases RunReading.route_drill hvalid hroute
    exact ⟨fun h => ⟨rfl, (DrillPayload.kept_iff huid hturn).mp h.2⟩,
      fun h => ⟨hroute, (DrillPayload.kept_iff huid hturn).mpr h.2⟩⟩

/-! ## All runs -/

namespace DrillWorld

variable {world world' : DrillWorld}

/-- **What the maps and the rows keep**: each payload is that of its own click, and was valid. -/
structure Sound (world : DrillWorld) : Prop where
  kept : ∀ requests ∈ world.processes, ∀ entry ∈ requests,
    world.clicked.lookup entry.1 = some entry.2
  valid : ∀ interactionId payload, world.clicked.lookup interactionId = some payload →
    payload.validateDrill = .ok ()
  fresh : ∀ interactionId, (world.clicked.lookup interactionId).isSome = true →
    interactionId < world.nextId
  pending : ∀ interactionId ∈ world.pending, interactionId < world.nextId
  running : ∀ run ∈ world.runs, run.interactionId < world.nextId

/-- **Every run so far answers for the row that was clicked.** -/
def Answers (world : DrillWorld) : Prop :=
  ∀ run ∈ world.runs, ∀ payload, world.clicked.lookup run.interactionId = some payload →
    run.Faithful payload

/-- What is looked up is there. -/
theorem mem_of_lookup {entries : List (Nat × DrillPayload)} {key : Nat} {payload : DrillPayload}
    (h : entries.lookup key = some payload) : (key, payload) ∈ entries := by
  obtain ⟨before, after, rfl, -⟩ := List.lookup_eq_some_iff.mp h
  exact List.mem_append_right _ List.mem_cons_self

/-- One more key leaves the other ones alone. -/
theorem lookup_cons_of_ne {entries : List (Nat × DrillPayload)} {key other : Nat}
    {payload : DrillPayload} (h : key ≠ other) :
    List.lookup key ((other, payload) :: entries) = entries.lookup key := by
  rw [List.lookup_cons, beq_false_of_ne h]

/-- A click leaves the clicks before it as they are. -/
theorem lookup_clicked {payload : DrillPayload} {interactionId : Nat}
    (h : interactionId < world.nextId) :
    List.lookup interactionId ((world.nextId, payload) :: world.clicked)
      = world.clicked.lookup interactionId :=
  lookup_cons_of_ne (Nat.ne_of_lt h)

/-! ### One action -/

/-- Processes may come and go, with maps that hold nothing new. -/
theorem Sound.of_processes (hsound : world.Sound) {processes : List (List (Nat × DrillPayload))}
    {pending : List Nat} (hpending : ∀ interactionId ∈ pending, interactionId ∈ world.pending)
    (hmaps : ∀ requests ∈ processes, ∀ entry ∈ requests, ∃ old ∈ world.processes, entry ∈ old) :
    Sound { world with processes := processes, pending := pending } where
  kept := fun requests hrequests entry hentry => by
    obtain ⟨old, hold, hmem⟩ := hmaps requests hrequests entry hentry
    exact hsound.kept old hold entry hmem
  valid := hsound.valid
  fresh := hsound.fresh
  pending := fun interactionId hid => hsound.pending interactionId (hpending interactionId hid)
  running := hsound.running

theorem Sound.start {process : Nat} {drill : Option DrillPayload} (hsound : world.Sound)
    (h : world.start process drill = some world') : world'.Sound := by
  have hpending : ∀ interactionId ∈ world.pending ++ [world.nextId],
      interactionId < world.nextId + 1 := fun interactionId hid => by
    rcases List.mem_append.mp hid with hid | hid
    · exact Nat.lt_succ_of_lt (hsound.pending interactionId hid)
    · exact (List.mem_singleton.mp hid) ▸ Nat.lt_succ_self _
  have hrunning : ∀ run ∈ world.runs, run.interactionId < world.nextId + 1 := fun run hrun =>
    Nat.lt_succ_of_lt (hsound.running run hrun)
  unfold DrillWorld.start at h
  split at h
  · cases h
  · rename_i requests hrequests
    dsimp only at h
    split at h
    · cases h
      exact
        { kept := hsound.kept
          valid := hsound.valid
          fresh := fun interactionId hid => Nat.lt_succ_of_lt (hsound.fresh interactionId hid)
          pending := hpending
          running := hrunning }
    · rename_i payload
      split at h
      · cases h
      · rename_i hvalid
        cases h
        have hold : ∀ interactionId other, world.clicked.lookup interactionId = some other →
            List.lookup interactionId ((world.nextId, payload) :: world.clicked) = some other :=
          fun interactionId other hother =>
            (lookup_clicked (hsound.fresh interactionId (by rw [hother]; rfl))).trans hother
        refine ⟨?_, ?_, ?_, hpending, hrunning⟩
        · intro maps hmaps entry hentry
          rcases List.mem_or_eq_of_mem_set hmaps with hmaps | rfl
          · exact hold _ _ (hsound.kept maps hmaps entry hentry)
          · rcases List.mem_cons.mp hentry with rfl | hentry
            · exact List.lookup_cons_self
            · exact hold _ _ (hsound.kept requests (List.mem_of_getElem? hrequests) entry hentry)
        · intro interactionId other hother
          rw [List.lookup_cons] at hother
          split at hother
          · cases hother
            exact hvalid
          · exact hsound.valid interactionId other hother
        · intro interactionId hid
          rw [List.lookup_cons] at hid
          split at hid
          · rename_i heq
            exact (beq_iff_eq.mp heq) ▸ Nat.lt_succ_self _
          · exact Nat.lt_succ_of_lt (hsound.fresh interactionId hid)

theorem Sound.claim {process interactionId : Nat} {reading : RunReading}
    {authorization : ResolvedAuthorization} (hsound : world.Sound)
    (h : world.claim process interactionId reading authorization = some world') : world'.Sound := by
  unfold DrillWorld.claim at h
  split at h
  · cases h
  · rename_i requests hrequests
    split at h
    · rename_i hpending
      cases h
      have hrest : Sound { world with
          processes := world.processes.set process
            (requests.filter (fun entry => decide (entry.1 ≠ interactionId)))
          pending := world.pending.erase interactionId } := by
        refine hsound.of_processes (fun id hid => List.mem_of_mem_erase hid) ?_
        intro maps hmaps entry hentry
        rcases List.mem_or_eq_of_mem_set hmaps with hmaps | rfl
        · exact ⟨maps, hmaps, hentry⟩
        · exact ⟨requests, List.mem_of_getElem? hrequests, (List.mem_filter.mp hentry).1⟩
      refine ⟨hrest.kept, hrest.valid, hrest.fresh, hrest.pending, fun run hrun => ?_⟩
      rcases List.mem_append.mp hrun with hrun | hrun
      · exact hsound.running run hrun
      · rw [List.mem_singleton.mp hrun]
        exact hsound.pending interactionId hpending
    · cases h

/-- **Every action keeps the maps and the rows in step.** -/
theorem Sound.step {action : DrillAction} (hsound : world.Sound)
    (h : world.step action = some world') : world'.Sound := by
  cases action with
  | boot =>
    cases h
    refine hsound.of_processes (fun _ hid => hid) fun maps hmaps entry hentry => ?_
    rcases List.mem_append.mp hmaps with hmaps | hmaps
    · exact ⟨maps, hmaps, hentry⟩
    · rw [List.mem_singleton.mp hmaps] at hentry
      cases hentry
  | restart process =>
    cases h
    refine hsound.of_processes (fun _ hid => hid) fun maps hmaps entry hentry => ?_
    rcases List.mem_or_eq_of_mem_set hmaps with hmaps | rfl
    · exact ⟨maps, hmaps, hentry⟩
    · cases hentry
  | start process drill => exact hsound.start h
  | sweep interactionId =>
    cases h
    exact hsound.of_processes (fun _ hid => List.mem_of_mem_erase hid)
      (fun maps hmaps entry hentry => ⟨maps, hmaps, hentry⟩)
  | claim process interactionId reading authorization => exact hsound.claim h

/-- **A claim within the guard answers for the clicked row.** -/
theorem Answers.claim {process interactionId : Nat} {reading : RunReading}
    {authorization : ResolvedAuthorization} (hsound : world.Sound) (hanswers : world.Answers)
    (hguard : world.Keeping (.claim process interactionId reading authorization))
    (h : world.claim process interactionId reading authorization = some world') :
    world'.Answers := by
  unfold DrillWorld.claim at h
  split at h
  · cases h
  · rename_i requests hrequests
    split at h
    · cases h
      intro run hrun payload hclicked
      rcases List.mem_append.mp hrun with hrun | hrun
      · exact hanswers run hrun payload hclicked
      · rw [List.mem_singleton.mp hrun] at hclicked ⊢
        obtain ⟨hheld, hcarriable⟩ := hguard payload hclicked
        have hdrill : ∀ other ∈ requests.lookup interactionId, other = payload := fun other hother =>
          Option.some.inj ((hsound.kept requests (List.mem_of_getElem? hrequests) _
            (mem_of_lookup hother)).symm.trans hclicked)
        refine (DrilledRun.faithful_iff (hsound.valid _ _ hclicked) hdrill).mpr fun _ _ =>
          ⟨?_, hcarriable⟩
        rw [held, hrequests] at hheld
        exact hheld
    · cases h

/-- Every action within the guard keeps the runs faithful. -/
theorem Answers.step {action : DrillAction} (hsound : world.Sound) (hanswers : world.Answers)
    (hguard : world.Keeping action) (h : world.step action = some world') : world'.Answers := by
  cases action with
  | boot | restart process | sweep interactionId =>
    cases h
    exact hanswers
  | start process drill =>
    change world.start process drill = some world' at h
    unfold DrillWorld.start at h
    split at h
    · cases h
    · dsimp only at h
      split at h
      · cases h
        exact hanswers
      · split at h
        · cases h
        · cases h
          intro run hrun payload hclicked
          rw [lookup_clicked (hsound.running run hrun)] at hclicked
          exact hanswers run hrun payload hclicked
  | claim process interactionId reading authorization => exact Answers.claim hsound hanswers hguard h

/-- **A drill keeps its narrowing.** In every run of the processes in which a drill is claimed by a
process that holds its payload, has no bed codes and asks a personal capability about nobody but the
caller, what answers a click is refused or narrowed to the clicked row. -/
theorem drill_keeps_narrowing (h : Machine.Reach drillMachine Keeping world) : world.Answers := by
  have hboth : world.Sound ∧ world.Answers := by
    refine h.invariant (I := fun w => w.Sound ∧ w.Answers) ⟨?_, ?_⟩ ?_
    · exact
        { kept := fun _ hmem => nomatch hmem
          valid := fun _ _ hclicked => nomatch hclicked
          fresh := fun _ hsome => nomatch hsome
          pending := fun _ hmem => nomatch hmem
          running := fun _ hmem => nomatch hmem }
    · exact fun _ hmem => nomatch hmem
    · exact fun hinv hguard hstep => ⟨hinv.1.step hstep, Answers.step hinv.1 hinv.2 hguard hstep⟩
  exact hboth.2

/-! ### Three clicks -/

/-- A run without anything that ends it, in which the model reads an overview of the workshops. -/
def plainRun : RunReading where
  stopped := none
  parse := .ok { capabilityId := some "fr010_workshop_output_overview" }
  windowUnreadable := false
  unclear := .clarified "请补充查询条件。"
  turn := Turn.plainReading

/-- The wages of one employee, for one order. -/
def wagesOfColleague : DrillPayload where
  capabilityId := "fr012_employee_payroll"
  employeeUid := some "u-2"
  orderCodes := ["D-7"]

/-- One bed of an order. -/
def bedOfOrder : DrillPayload where
  capabilityId := "fr006_order_output"
  orderCodes := ["D-7"]
  bedCodes := ["1555"]

/-- A click, and its claim by the process that accepted it. -/
def answeredClick (payload : DrillPayload) : List DrillAction :=
  [.boot, .start 0 (some payload), .claim 0 0 plainRun Turn.managerOfOne]

/-- A click whose process is restarted before the claim. -/
def lostClick (payload : DrillPayload) : List DrillAction :=
  [.boot, .start 0 (some payload), .restart 0, .claim 0 0 plainRun Turn.managerOfOne]

/-- The click on a colleague's row is answered for it. -/
theorem drill_keeps_narrowing_colleague :
    ∃ world, Machine.Reach drillMachine Keeping world ∧ ∃ run ∈ world.runs, ∃ filters,
      run.filters = .ok filters ∧ run.turn = .ok (.drill wagesOfColleague)
        ∧ wagesOfColleague.Kept filters := by
  have hreach : Machine.Reach drillMachine Keeping
      (drillMachine.after (answeredClick wagesOfColleague)) :=
    Machine.reach_after _ (by decide +kernel)
  obtain ⟨run, hrun, hclicked, hfilters⟩ :
      ∃ run ∈ (drillMachine.after (answeredClick wagesOfColleague)).runs,
        (drillMachine.after (answeredClick wagesOfColleague)).clicked.lookup run.interactionId
          = some wagesOfColleague
      ∧ run.filters = .ok ⟨"t-1", some ["u-2"], some ["d-1"], some ["D-7"], none, none, none, none,
          none⟩ := by
    decide +kernel
  exact ⟨_, hreach, run, hrun, _, hfilters,
    drill_keeps_narrowing hreach run hrun wagesOfColleague hclicked _ hfilters⟩

/-- **Two clicks that are answered for more than the clicked row.** The bed of the first is not among
the filters, although the process that accepted the click runs it. The second is claimed by a process
that was restarted in between, as a question in free text. -/
theorem drill_widened :
    (∃ world, Machine.Reach drillMachine Machine.free world ∧ ∃ run ∈ world.runs,
      world.clicked.lookup run.interactionId = some bedOfOrder
        ∧ run.filters = .ok ⟨"t-1", none, some ["d-1"], some ["D-7"], none, none, none, none, none⟩
        ∧ ¬ run.Faithful bedOfOrder)
    ∧ ∃ world, Machine.Reach drillMachine Machine.free world ∧ ∃ run ∈ world.runs,
      world.clicked.lookup run.interactionId = some wagesOfColleague
        ∧ run.turn = .ok (.freeText "fr010_workshop_output_overview" {})
        ∧ run.filters = .ok ⟨"t-1", none, some ["d-1"], none, none, none, none, none, none⟩
        ∧ ¬ run.Faithful wagesOfColleague := by
  constructor
  · refine ⟨_, Machine.reach_after (answeredClick bedOfOrder) (by decide +kernel), ?_⟩
    obtain ⟨run, hrun, hclicked, hfilters⟩ :
        ∃ run ∈ (drillMachine.after (answeredClick bedOfOrder)).runs,
          (drillMachine.after (answeredClick bedOfOrder)).clicked.lookup run.interactionId
            = some bedOfOrder
        ∧ run.filters = .ok ⟨"t-1", none, some ["d-1"], some ["D-7"], none, none, none, none,
            none⟩ := by
      decide +kernel
    refine ⟨run, hrun, hclicked, hfilters, fun hfaithful => ?_⟩
    have hbeds := (hfaithful _ hfilters).2.beds
    cases Carried.none_iff.mp hbeds
  · refine ⟨_, Machine.reach_after (lostClick wagesOfColleague) (by decide +kernel), ?_⟩
    obtain ⟨run, hrun, hclicked, hturn, hfilters⟩ :
        ∃ run ∈ (drillMachine.after (lostClick wagesOfColleague)).runs,
          (drillMachine.after (lostClick wagesOfColleague)).clicked.lookup run.interactionId
            = some wagesOfColleague
        ∧ run.turn = .ok (.freeText "fr010_workshop_output_overview" {})
        ∧ run.filters = .ok ⟨"t-1", none, some ["d-1"], none, none, none, none, none, none⟩ := by
      decide +kernel
    refine ⟨run, hrun, hclicked, hturn, hfilters, fun hfaithful => ?_⟩
    cases Except.ok.inj ((hfaithful _ hfilters).1.symm.trans hturn)

end DrillWorld
