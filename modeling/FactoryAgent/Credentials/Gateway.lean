import FactoryAgent.Domain.Identity
import FactoryAgent.Domain.Session

/-!
# Credential bundles and the token gateway

The values of `data_api/credentials.py` and the two dictionaries of `data_api/token_gateway.py`. The
gateway keeps one live entry per caller and one per encrypted credential; what the token endpoint
answers is an argument, because it may answer anything.

The source keys the second dictionary by the SHA-256 digest of the encrypted credential; here the
credential is its own key. `CURRENT_BUNDLE.get() is entry.bundle` compares objects, so a bundle
carries the number of the exchange that created it.
-/

/-- **The credential bundle** that one exchange returned. -/
structure MesCredentialBundle where
  /-- The number of the exchange: the identity of the object. -/
  exchange : Nat
  accessToken : String
  appKey : String
  sign : String
  timestamp : Int
  expiresAt : Instant
  user : String
  uname : String
  roles : List String
  dept : String
  boundDepts : List String
  deriving DecidableEq, Repr

namespace MesCredentialBundle

/-- The caller a bundle belongs to: the plaintext application key is the tenant. -/
def caller (bundle : MesCredentialBundle) : TrustedCredential := ⟨bundle.appKey, bundle.user⟩

/-- The bound departments with the fallback to the single one. -/
def effectiveBoundDepts (bundle : MesCredentialBundle) : List String :=
  if bundle.boundDepts ≠ [] then bundle.boundDepts
  else if bundle.dept ≠ "" then [bundle.dept] else []

/-- `seconds_until_expiry`: whole seconds, towards zero. -/
def secondsUntilExpiry (bundle : MesCredentialBundle) (now : Instant) : Int :=
  (bundle.expiresAt - now).tdiv 1000000

/-- `needs_refresh`. -/
def needsRefresh (bundle : MesCredentialBundle) (now : Instant) (thresholdSeconds : Int) : Bool :=
  decide (bundle.secondsUntilExpiry now ≤ thresholdSeconds)

end MesCredentialBundle

/-- The identity facts of a caller that leave the gateway. -/
structure ResolvedPrincipal where
  credential : TrustedCredential
  displayName : String
  role : Role
  boundDeptIds : List String
  deriving DecidableEq, Repr

/-- `_principal_from_bundle`: rejected without a known role. Blank departments are dropped. -/
def principalFromBundle (bundle : MesCredentialBundle) : Option ResolvedPrincipal :=
  match bundle.roles with
  | [] => none
  | code :: _ => (Role.fromMesCode code).map (fun role =>
      { credential := bundle.caller
        displayName := bundle.uname
        role := role
        boundDeptIds := bundle.effectiveBoundDepts.filter (fun dept => decide (Role.stripped dept ≠ "")) })

/-- **A live entry**: what one exchange established about a caller. -/
structure LiveEntry where
  principal : ResolvedPrincipal
  bundle : MesCredentialBundle
  encryptedCredential : String
  deriving DecidableEq, Repr

/-- **The dictionaries of the gateway**, latest entry first. -/
structure TokenGateway where
  entriesByIdentity : List (TrustedCredential × LiveEntry)
  entriesByDigest : List (String × LiveEntry)
  deriving DecidableEq, Repr

namespace TokenGateway

/-- The gateway before any exchange. -/
def empty : TokenGateway := ⟨[], []⟩

/-- The live entry of a caller. -/
def entryOf (gateway : TokenGateway) (caller : TrustedCredential) : Option LiveEntry :=
  gateway.entriesByIdentity.lookup caller

/-- The entry an encrypted credential was exchanged for, while it needs no new exchange. -/
def cached (gateway : TokenGateway) (encrypted : String) (now : Instant) (threshold : Int) :
    Option LiveEntry :=
  (gateway.entriesByDigest.lookup encrypted).filter
    (fun entry => !entry.bundle.needsRefresh now threshold)

/-- Store an entry under its caller and under its encrypted credential. -/
def store (gateway : TokenGateway) (entry : LiveEntry) : TokenGateway where
  entriesByIdentity := (entry.principal.credential, entry) :: gateway.entriesByIdentity
  entriesByDigest := (entry.encryptedCredential, entry) :: gateway.entriesByDigest

/-- The end of `authenticate` after an exchange: the entry is stored where the bundle has a
principal. -/
def authenticated (gateway : TokenGateway) (encrypted : String) (bundle : MesCredentialBundle) :
    Option (ResolvedPrincipal × TokenGateway) :=
  (principalFromBundle bundle).map (fun principal =>
    (principal, gateway.store ⟨principal, bundle, encrypted⟩))

/-- The end of `refresh_bundle` after the exchange for an entry of a caller: the entry is replaced
where the bundle is still the caller's. -/
def refreshed (gateway : TokenGateway) (entry : LiveEntry) (caller : TrustedCredential)
    (bundle : MesCredentialBundle) : Option TokenGateway :=
  match principalFromBundle bundle with
  | none => none
  | some principal =>
    if principal.credential = caller then
      some (gateway.store { entry with principal := principal, bundle := bundle })
    else none

/-! ## What the entries are -/

/-- A principal is read off its bundle. -/
theorem principal_credential {bundle : MesCredentialBundle} {principal : ResolvedPrincipal}
    (h : principalFromBundle bundle = some principal) : principal.credential = bundle.caller := by
  unfold principalFromBundle at h
  split at h
  · cases h
  · obtain ⟨role, -, rfl⟩ := Option.map_eq_some_iff.mp h
    rfl

/-- A stored entry is the live one of its caller. -/
theorem entryOf_store (gateway : TokenGateway) (entry : LiveEntry) (caller : TrustedCredential) :
    (gateway.store entry).entryOf caller
      = if caller = entry.principal.credential then some entry else gateway.entryOf caller := by
  unfold entryOf store
  by_cases h : caller = entry.principal.credential
  · simp [h]
  · have hne : (caller == entry.principal.credential) = false := by simpa using h
    simp [List.lookup_cons, hne, h]

/-- **An accepted refresh** stores the bundle with its principal, and the bundle is the caller's. -/
theorem refreshed_eq_some {gateway gateway' : TokenGateway} {entry : LiveEntry}
    {caller : TrustedCredential} {bundle : MesCredentialBundle}
    (heq : gateway.refreshed entry caller bundle = some gateway') :
    ∃ principal, principalFromBundle bundle = some principal ∧ bundle.caller = caller
      ∧ gateway' = gateway.store { entry with principal := principal, bundle := bundle } := by
  unfold refreshed at heq
  split at heq
  · cases heq
  · rename_i principal hprincipal
    split at heq
    · rename_i hcaller
      cases heq
      exact ⟨principal, hprincipal, (principal_credential hprincipal).symm.trans hcaller, rfl⟩
    · cases heq

end TokenGateway
