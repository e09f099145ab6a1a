import FactoryAgent.Credentials.Authorization
import FactoryAgent.Lib.DecimalText
import FactoryAgent.Lib.IsoDate
import Mathlib.Data.Finset.Card
import Mathlib.Data.List.Induction
import Mathlib.Logic.Equiv.Basic

/-!
# Cache keys of scopes

`application/cache.py` over the versions of `application/authorization.py`: the key of a cache line carries a
fingerprint of the scope, and the fingerprint is the hash of the version of the scope and of the sizes of its sets, not
of the sets. The version is the number of the evaluation, counted by each process from its start. So the keys of two
scopes are apart exactly where the numbers of their evaluations, their owner flags or their sizes are
(`keys_separate_iff`): the first evaluations of two processes may have one key.
-/

namespace ScopeKeys

/-! ## Versions and keys -/

/-- **`FixedScopeVersionAssigner`** -/
structure FixedScopeVersionAssigner where
  versionPrefix : String
  counter : Nat

/-- An assigner as the composition of a process makes it. -/
def FixedScopeVersionAssigner.fresh : FixedScopeVersionAssigner :=
  ⟨"scope", 0⟩

/-- The version of a number, `f"{prefix}-{counter:08d}"`. -/
def versionText (versionPrefix : String) (counter : Nat) : String :=
  versionPrefix ++ "-" ++ String.ofList (IsoDate.padded 8 counter)

/-- `new_version` -/
def FixedScopeVersionAssigner.newVersion (assigner : FixedScopeVersionAssigner) :
    String × FixedScopeVersionAssigner :=
  (versionText assigner.versionPrefix (assigner.counter + 1), { assigner with counter := assigner.counter + 1 })

/-- A data scope with the version of its evaluation. -/
structure EvaluatedScope extends DataScope where
  scopeVersion : String

/-- The size of a set of identifiers. -/
def size (identifiers : List String) : Nat :=
  identifiers.toFinset.card

/-- Text of a truth value. -/
def boolText (value : Bool) : String :=
  if value then "True" else "False"

/-- What `scope_fingerprint` hashes: parts with a separator between them. -/
def summary (scope : EvaluatedScope) : String :=
  scope.scopeVersion ++ "\x1f" ++ (scope.tenantId ++ "\x1f" ++ (boolText scope.mesFiltered ++ "\x1f"
    ++ (Nat.repr (size scope.employeeIds) ++ "\x1f" ++ Nat.repr (size scope.deptIds))))

/-- **`scope_fingerprint`** -/
def scopeFingerprint (hash : String → String) (scope : EvaluatedScope) : String :=
  hash (summary scope)

/-- `CACHE_DOMAINS` -/
def cacheDomains : List String :=
  ["identity_org", "order_progress", "output", "payroll", "v2_result"]

/-- The versions that a cache is made with. -/
structure CacheVersions where
  contract : String
  metric : String
  data : String

/-- **`build_key`**, for parameters as their canonical text; `none` is a raised `UnknownCacheDomainError`. -/
def buildKey (hash : String → String) (versions : CacheVersions) (domain tenantId fingerprint params : String) :
    Option String :=
  if domain ∈ cacheDomains then
    some (("fa:" ++ versions.contract ++ ":" ++ versions.metric ++ ":" ++ versions.data ++ ":" ++ hash tenantId ++ ":")
      ++ fingerprint ++ (":" ++ domain ++ ":" ++ hash params))
  else none

/-- The key of a cache line of a scope. -/
def keyOf (hash : String → String) (versions : CacheVersions) (scope : EvaluatedScope) (domain params : String) :
    Option String :=
  buildKey hash versions domain scope.tenantId (scopeFingerprint hash scope) params

/-- The shared store: the value at each key. -/
def put (store : String → Option String) (key value : String) : String → Option String :=
  Function.update store key (some value)

/-! ## Histories -/

variable {ι : Type} [DecidableEq ι]

/-- **What happens in the processes**: one starts, or authorizes a caller; the departments of the directory count where
the membership has none. -/
inductive Step (ι : Type)
  | start (process : ι)
  | authorize (process : ι) (membership : TenantMembership) (directoryDepts : List String)

/-- The scope of a caller, without a version. -/
def scopeOf (membership : TenantMembership) (directoryDepts : List String) : DataScope :=
  membership.dataScope (membership.currentDepts.getD directoryDepts)

/-- The assigners of the processes, and the scopes that were evaluated. -/
structure World (ι : Type) where
  assigners : ι → FixedScopeVersionAssigner
  scopes : List EvaluatedScope

/-- One step: `authorize` takes a new version of its process. -/
def World.step (world : World ι) : Step ι → World ι
  | .start process => { world with assigners := Function.update world.assigners process .fresh }
  | .authorize process membership directoryDepts =>
    let issued := (world.assigners process).newVersion
    { assigners := Function.update world.assigners process issued.2
      scopes := world.scopes ++ [⟨scopeOf membership directoryDepts, issued.1⟩] }

/-- The world after a history. -/
def run (history : List (Step ι)) : World ι :=
  history.foldl World.step ⟨fun _ => .fresh, []⟩

/-! ## Evaluations by their numbers -/

/-- **An evaluation**: its number among those of its process since it started, and its scope. -/
structure Evaluation where
  number : Nat
  scope : DataScope
deriving DecidableEq

/-- The evaluations of a process since it started last. -/
def evaluated (process : ι) : List (Step ι) → Nat
  | [] => 0
  | .start other :: earlier => if other = process then 0 else evaluated process earlier
  | .authorize other _ _ :: earlier => evaluated process earlier + if other = process then 1 else 0

/-- **The evaluations of a history**, the last step first. -/
def evaluations : List (Step ι) → List Evaluation
  | [] => []
  | .start _ :: earlier => evaluations earlier
  | .authorize process membership directoryDepts :: earlier =>
    ⟨evaluated process earlier + 1, scopeOf membership directoryDepts⟩ :: evaluations earlier

/-- The sets of two scopes differ. -/
def Differ (scope other : DataScope) : Prop :=
  scope.employeeIds.toFinset ≠ other.employeeIds.toFinset ∨ scope.deptIds.toFinset ≠ other.deptIds.toFinset

instance (scope other : DataScope) : Decidable (Differ scope other) :=
  inferInstanceAs (Decidable (_ ∨ _))

/-- **The keys of different scopes are apart**: two scopes of one tenant whose sets differ have no key in common, for a
domain and parameters, so a line written under the one is not read under the other. -/
def KeysSeparate (hash : String → String) (versions : CacheVersions) (scopes : List EvaluatedScope) : Prop :=
  ∀ scope ∈ scopes, ∀ other ∈ scopes, scope.tenantId = other.tenantId → Differ scope.toDataScope other.toDataScope →
    ∀ domain params key otherKey, keyOf hash versions scope domain params = some key →
      keyOf hash versions other domain params = some otherKey →
      key ≠ otherKey ∧ ∀ store value, put store key value otherKey = store otherKey

/-- Two evaluations that no key tells apart: they have one number, one owner flag and sets of one size. -/
def Alike (evaluation other : Evaluation) : Prop :=
  evaluation.number = other.number ∧ evaluation.scope.mesFiltered = other.scope.mesFiltered
    ∧ size evaluation.scope.employeeIds = size other.scope.employeeIds
    ∧ size evaluation.scope.deptIds = size other.scope.deptIds

instance (evaluation other : Evaluation) : Decidable (Alike evaluation other) :=
  inferInstanceAs (Decidable (_ ∧ _))

/-- **Evaluations that keys tell apart**: no two of one tenant with different sets are alike. -/
def NoneAlike (evaluations : List Evaluation) : Prop :=
  ∀ evaluation ∈ evaluations, ∀ other ∈ evaluations, evaluation.scope.tenantId = other.scope.tenantId →
    Differ evaluation.scope other.scope → ¬Alike evaluation other

instance (evaluations : List Evaluation) : Decidable (NoneAlike evaluations) :=
  inferInstanceAs (Decidable (∀ evaluation ∈ evaluations, _))

/-! ## What a key tells apart -/

/-- Texts before a separator that they do not have are equal where the whole texts are, and so are the texts after. -/
theorem append_separator_inj {sep : Char} {before rest before' rest' : List Char} (h : sep ∉ before)
    (h' : sep ∉ before') (heq : before ++ sep :: rest = before' ++ sep :: rest') : before = before' ∧ rest = rest' := by
  induction before generalizing before' with
  | nil =>
    cases before' with
    | nil => exact ⟨rfl, List.tail_eq_of_cons_eq heq⟩
    | cons c before' => exact absurd (List.head_eq_of_cons_eq heq ▸ List.mem_cons_self) h'
  | cons c before ih =>
    cases before' with
    | nil => exact absurd ((List.head_eq_of_cons_eq heq).symm ▸ List.mem_cons_self) h
    | cons c' before' =>
      obtain ⟨rfl, htail⟩ := List.cons_eq_cons.mp heq
      obtain ⟨rfl, hrest⟩ := ih (List.not_mem_of_not_mem_cons h) (List.not_mem_of_not_mem_cons h') htail
      exact ⟨rfl, hrest⟩

/-- The separator of a summary. -/
def separator : Char :=
  '\x1f'

theorem separator_text (front back : String) :
    (front ++ "\x1f" ++ back).toList = front.toList ++ separator :: back.toList := by
  simp [separator]

theorem separator_notMem_digits {cs : List Char} (h : ∀ c ∈ cs, c.isDigit = true) : separator ∉ cs := fun hmem =>
  absurd (h separator hmem) (by decide)

theorem separator_notMem_repr (n : Nat) : separator ∉ (Nat.repr n).toList :=
  separator_notMem_digits fun _ => Decimal.isDigit_of_mem_repr

theorem separator_notMem_boolText (value : Bool) : separator ∉ (boolText value).toList := by
  cases value <;> decide

/-- **Numbers with leading zeros are told apart.** -/
theorem padded_injective {width n m : Nat} (h : IsoDate.padded width n = IsoDate.padded width m) : n = m := by
  have hvalue := congrArg Decimal.digitsValue h
  rwa [IsoDate.padded, IsoDate.padded, Decimal.digitsValue_zeros, Decimal.digitsValue_zeros,
    Decimal.digitsValue_repr, Decimal.digitsValue_repr] at hvalue

/-- The version of a process that runs, by its number. -/
def version (number : Nat) : String :=
  versionText "scope" number

theorem version_inj {n m : Nat} : version n = version m ↔ n = m := by
  constructor
  · intro h
    rw [version, version, versionText, versionText, String.append_right_inj] at h
    exact padded_injective (String.ofList_inj.mp h)
  · rintro rfl
    rfl

theorem separator_notMem_version (n : Nat) : separator ∉ (version n).toList := by
  have hdigits : separator ∉ IsoDate.padded 8 n := by
    refine separator_notMem_digits fun c hc => ?_
    rcases List.mem_append.mp hc with hzero | hdigit
    · rw [List.eq_of_mem_replicate hzero]
      rfl
    · exact Decimal.isDigit_of_mem_repr hdigit
  have hfront : separator ∉ ("scope" ++ "-").toList := by decide
  rw [version, versionText, String.toList_append, String.toList_ofList, List.mem_append]
  exact not_or.mpr ⟨hfront, hdigits⟩

theorem boolText_inj {value other : Bool} (h : boolText value = boolText other) : value = other := by
  cases value <;> cases other <;> first | rfl | exact absurd h (by decide)

theorem repr_inj {n m : Nat} (h : (Nat.repr n).toList = (Nat.repr m).toList) : n = m := by
  have hvalue := congrArg Decimal.digitsValue h
  rwa [Decimal.digitsValue_repr, Decimal.digitsValue_repr] at hvalue

/-- A scope with the version of a number. -/
def versioned (evaluation : Evaluation) : EvaluatedScope :=
  ⟨evaluation.scope, version evaluation.number⟩

/-- **The summaries of two evaluations of one tenant are one text exactly where these are alike.** -/
theorem summary_inj {evaluation other : Evaluation} (htenant : evaluation.scope.tenantId = other.scope.tenantId) :
    summary (versioned evaluation) = summary (versioned other) ↔ Alike evaluation other := by
  constructor
  · intro h
    have hlist := congrArg String.toList h
    simp only [summary, versioned, separator_text, htenant] at hlist
    obtain ⟨hversion, hlist⟩ :=
      append_separator_inj (separator_notMem_version _) (separator_notMem_version _) hlist
    rw [List.append_cancel_left_eq, List.cons.injEq] at hlist
    obtain ⟨hfiltered, hlist⟩ :=
      append_separator_inj (separator_notMem_boolText _) (separator_notMem_boolText _) hlist.2
    obtain ⟨hemployees, hdepts⟩ := append_separator_inj (separator_notMem_repr _) (separator_notMem_repr _) hlist
    exact ⟨version_inj.mp (String.toList_inj.mp hversion), boolText_inj (String.toList_inj.mp hfiltered),
      repr_inj hemployees, repr_inj hdepts⟩
  · rintro ⟨hnumber, hfiltered, hemployees, hdepts⟩
    simp only [summary, versioned, hnumber, htenant, hfiltered, hemployees, hdepts]

/-- Keys of one tenant, domain and parameters are one key exactly where the summaries are one text. -/
theorem keyOf_inj {hash : String → String} (hinj : Function.Injective hash) (versions : CacheVersions)
    {scope other : EvaluatedScope} (htenant : scope.tenantId = other.tenantId) {domain params key otherKey : String}
    (hkey : keyOf hash versions scope domain params = some key)
    (hother : keyOf hash versions other domain params = some otherKey) :
    key = otherKey ↔ summary scope = summary other := by
  rw [keyOf, buildKey] at hkey hother
  split at hkey
  · rename_i hdomain
    rw [if_pos hdomain] at hother
    rw [← Option.some.inj hkey, ← Option.some.inj hother, htenant, String.append_left_inj, String.append_right_inj]
    exact hinj.eq_iff
  · exact absurd hkey (Option.some_ne_none key).symm

/-- A key of a known domain. -/
theorem exists_keyOf (hash : String → String) (versions : CacheVersions) (scope : EvaluatedScope) (params : String) :
    ∃ key, keyOf hash versions scope "output" params = some key :=
  ⟨_, by rw [keyOf, buildKey, if_pos (by decide)]⟩

/-! ## Runs -/

theorem run_concat (history : List (Step ι)) (step : Step ι) : run (history ++ [step]) = (run history).step step := by
  rw [run, List.foldl_append]
  rfl

/-- **The counter of a process is the number of its evaluations since it started.** -/
theorem assigners_run (history : List (Step ι)) (process : ι) :
    (run history).assigners process = ⟨"scope", evaluated process history.reverse⟩ := by
  induction history using List.reverseRecOn with
  | nil => rfl
  | append_singleton history step ih =>
    rw [run_concat, List.reverse_append, List.reverse_singleton, List.singleton_append]
    cases step with
    | start other =>
      by_cases hprocess : other = process
      · subst hprocess
        simp [World.step, evaluated, FixedScopeVersionAssigner.fresh]
      · simp [World.step, evaluated, hprocess, Function.update_of_ne (Ne.symm hprocess), ih]
    | authorize other membership directoryDepts =>
      by_cases hprocess : other = process
      · subst hprocess
        simp [World.step, evaluated, FixedScopeVersionAssigner.newVersion, ih]
      · simp [World.step, evaluated, hprocess, Function.update_of_ne (Ne.symm hprocess), ih]

/-- **The scopes of a run are its evaluations** with the versions of their numbers. -/
theorem scopes_run (history : List (Step ι)) :
    (run history).scopes = (evaluations history.reverse).reverse.map versioned := by
  induction history using List.reverseRecOn with
  | nil => rfl
  | append_singleton history step ih =>
    rw [run_concat, List.reverse_append, List.reverse_singleton, List.singleton_append]
    cases step with
    | start other => exact ih
    | authorize other membership directoryDepts =>
      rw [World.step, evaluations, List.reverse_cons, List.map_append, ← ih, assigners_run]
      rfl

/-- The scopes of a run are the evaluations of its history. -/
theorem mem_scopes_run {history : List (Step ι)} {scope : EvaluatedScope} :
    scope ∈ (run history).scopes ↔ ∃ evaluation ∈ evaluations history.reverse, versioned evaluation = scope := by
  rw [scopes_run, List.mem_map]
  simp only [List.mem_reverse]

/-- **The keys of different scopes are apart exactly where** no two evaluations of one tenant with different sets have
one number, counted in their process since it started, one owner flag, and sets of one size. -/
theorem keys_separate_iff {hash : String → String} (hinj : Function.Injective hash) (versions : CacheVersions)
    (history : List (Step ι)) :
    KeysSeparate hash versions (run history).scopes ↔ NoneAlike (evaluations history.reverse) := by
  constructor
  · intro h evaluation hevaluation other hother htenant hdiffer halike
    obtain ⟨key, hkey⟩ := exists_keyOf hash versions (versioned evaluation) ""
    obtain ⟨otherKey, hotherKey⟩ := exists_keyOf hash versions (versioned other) ""
    have hapart := (h _ (mem_scopes_run.mpr ⟨_, hevaluation, rfl⟩) _ (mem_scopes_run.mpr ⟨_, hother, rfl⟩) htenant
      hdiffer _ _ _ _ hkey hotherKey).1
    exact hapart ((keyOf_inj hinj versions htenant hkey hotherKey).mpr ((summary_inj htenant).mpr halike))
  · intro h scope hscope other hother htenant hdiffer domain params key otherKey hkey hotherKey
    obtain ⟨evaluation, hevaluation, rfl⟩ := mem_scopes_run.mp hscope
    obtain ⟨otherEvaluation, hotherEvaluation, rfl⟩ := mem_scopes_run.mp hother
    have hapart : key ≠ otherKey := fun heq => h _ hevaluation _ hotherEvaluation htenant hdiffer
      ((summary_inj htenant).mp ((keyOf_inj hinj versions htenant hkey hotherKey).mp heq))
    exact ⟨hapart, fun store value => Function.update_of_ne hapart.symm _ _⟩

/-! ## Two employees -/

/-- An employee bound to a department. -/
def employee (employeeId deptId : String) : TenantMembership where
  userId := employeeId
  tenantId := "app-key-1"
  employeeId := employeeId
  displayName := employeeId
  role := .employee
  boundDeptIds := [deptId]

/-- The first and the second evaluation of one process. -/
def oneProcess : List (Step Unit) :=
  [.authorize () (employee "A001" "D1") [], .authorize () (employee "B002" "D2") []]

/-- SHA-256 of four texts, each of which changes places with its digest. -/
def digest : Equiv.Perm String :=
  (Equiv.swap "scope-00000001\x1fapp-key-1\x1fFalse\x1f1\x1f1"
      "32fefb2ae65bf47615a8eed71bc2061a3e5fdd7a952bafc89842796bb0071e67").trans
    ((Equiv.swap "scope-00000002\x1fapp-key-1\x1fFalse\x1f1\x1f1"
      "5dccf222149b613c893f29fd34b61e69773b6664cda454ed48849e33f811f902").trans
    ((Equiv.swap "app-key-1" "82cc981eff81e81fb5e6a7edf3e0745a82d84067f4a16024da307c7f6702e3ac").trans
    (Equiv.swap "\x7b\x7d" "44136fa355b3678a1146ad16f7e8649e94fb4fc21fe77e8310c060f61caaff8a")))

/-- Two evaluations of one process have keys of their own. -/
theorem keys_separate_one_process : KeysSeparate digest ⟨"1", "1", "1"⟩ (run oneProcess).scopes :=
  (keys_separate_iff digest.injective ⟨"1", "1", "1"⟩ oneProcess).mpr (by decide)

/-- The first evaluations of two processes. -/
def twoProcesses : List (Step Bool) :=
  [.start false, .start true, .authorize false (employee "A001" "D1") [], .authorize true (employee "B002" "D2") []]

/-- **Two employees of different departments have one key**, whatever the hash: each is the first to be authorized by
its process. -/
theorem first_scopes_share_key (hash : String → String) (versions : CacheVersions) :
    ¬KeysSeparate hash versions (run twoProcesses).scopes := by
  intro h
  have hfirst : (⟨1, scopeOf (employee "A001" "D1") []⟩ : Evaluation) ∈ evaluations twoProcesses.reverse := by decide
  have hsecond : (⟨1, scopeOf (employee "B002" "D2") []⟩ : Evaluation) ∈ evaluations twoProcesses.reverse := by decide
  have hsummary : summary (versioned ⟨1, scopeOf (employee "A001" "D1") []⟩)
      = summary (versioned ⟨1, scopeOf (employee "B002" "D2") []⟩) := (summary_inj rfl).mpr (by decide)
  obtain ⟨key, hkey⟩ := exists_keyOf hash versions (versioned ⟨1, scopeOf (employee "A001" "D1") []⟩) ""
  have hother : keyOf hash versions (versioned ⟨1, scopeOf (employee "B002" "D2") []⟩) "output" "" = some key := by
    rw [← hkey, keyOf, keyOf, scopeFingerprint, scopeFingerprint, hsummary]
    rfl
  exact (h _ (mem_scopes_run.mpr ⟨_, hfirst, rfl⟩) _ (mem_scopes_run.mpr ⟨_, hsecond, rfl⟩) rfl (by decide)
    _ _ _ _ hkey hother).1 rfl

/-- The keys of different scopes are not always apart. -/
theorem scopes_share_key :
    ¬∀ (hash : String → String), Function.Injective hash → ∀ (versions : CacheVersions) (history : List (Step Bool)),
      KeysSeparate hash versions (run history).scopes := fun h =>
  first_scopes_share_key _ _ (h id Function.injective_id ⟨"1", "1", "1"⟩ twoProcesses)

end ScopeKeys
