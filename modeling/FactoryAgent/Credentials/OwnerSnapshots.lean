import FactoryAgent.Credentials.Authorization
import FactoryAgent.Credentials.Tasks
import Mathlib.Logic.Basic

/-!
# Snapshots that are fetched as the owner

`OwnerSnapshotFetcher` of `data_api/owner_snapshots.py`: each fetcher holds one encrypted credential, resolves it to an
owner, checks the tenant and the authorization, binds the live bundle of the identity and walks over the pages. What
other interactions do to the same identity is an exchange or a refresh of their own, at any time and with any answer of
the token endpoint.

An action is what one fetch does up to its next await. The one await that matters is the directory lookup inside the
authorization, which is made for an owner without departments: the role is read before it, and the bundle that is bound
after it is whatever the identity has by then (`KeepsOwner`).

Not modelled: the parameters and the answers of a page, `aclose`, and the registry check before each page, which only
refuses. A fetch may be cancelled at any await.
-/

/-- **A bundle of an owner.** -/
def MesCredentialBundle.IsOwner (bundle : MesCredentialBundle) : Prop :=
  ∃ principal, principalFromBundle bundle = some principal ∧ principal.role = .owner

namespace OwnerSnapshots

/-! ## Fetchers -/

/-- What `_validate_owner` is called for: for `_resolve_owner`, or for `_refresh` with the refreshed bundle and whether
the page was sent before. -/
inductive Purpose where
  | resolve
  | refresh (bundle : MesCredentialBundle) (retried : Bool)
  deriving DecidableEq

/-- **What a fetch awaits.** `owner` is the credential that it resolved, `current` its `CURRENT_BUNDLE`. -/
inductive Activity where
  /-- `authenticate` awaits the exchange. -/
  | exchanging
  /-- `_assert_active` awaits the registry. -/
  | checkingTenant (owner : TrustedCredential) (purpose : Purpose)
  /-- `authorize` read the membership and awaits the directory. -/
  | lookingUp (owner : TrustedCredential) (membership : TenantMembership) (purpose : Purpose)
  /-- The pager is between two pages. -/
  | walking (owner : TrustedCredential) (current : MesCredentialBundle)
  /-- `refresh_bundle` awaits the exchange for the entry. -/
  | refreshing (owner : TrustedCredential) (entry : LiveEntry) (retried : Bool)
  /-- `_send` has attempts left. -/
  | sending (owner : TrustedCredential) (current : MesCredentialBundle) (attemptsLeft : Nat) (retried : Bool)
  deriving DecidableEq

/-- **A fetch**: the tenant it is for, where it is for one; whether it is for rows, or only verifies the owner; and the
bundles of the pages that were answered. -/
structure Fetch where
  tenant : Option String
  wanted : Bool
  pages : List MesCredentialBundle
  activity : Activity
  deriving DecidableEq

/-- **A fetcher**, and the fetch that holds its lock. -/
structure Fetcher where
  encrypted : String
  identity : Option TrustedCredential
  fetch : Option Fetch
  deriving DecidableEq

/-- A page request as it was sent. -/
structure SentPage where
  tenant : Option String
  bundle : MesCredentialBundle
  deriving DecidableEq

/-- A snapshot that a fetch returned: its tenant, and the bundles of its pages. -/
structure Snapshot where
  tenantId : String
  pages : List MesCredentialBundle
  deriving DecidableEq

/-- **What one action does**: to the gateway, to the fetcher, and what it sends or returns. -/
structure Turn where
  gateway : TokenGateway
  fetcher : Fetcher
  sent : Option SentPage := none
  snapshot : Option Snapshot := none
  deriving DecidableEq

/-- **What one fetch does up to its next await.** -/
inductive FetchAction where
  | start (tenant : Option String) (wanted : Bool) (now : Instant)
  | exchanged (response : Option MesCredentialBundle)
  | tenantChecked (active : Bool)
  | lookedUp (deptIds : Option (List String))
  | execute (now : Instant)
  | refreshed (response : Option MesCredentialBundle)
  | attempt (outcome : AttemptOutcome)
  | finish
  | cancel
  deriving DecidableEq

/-- The synchronous checks of `_validate_owner`: the identity has a live entry, and it is an owner's. -/
def holdsOwner (gateway : TokenGateway) (owner : TrustedCredential) : Bool :=
  (gateway.entryOf owner).any fun entry =>
    decide (entry.principal.credential = owner ∧ entry.principal.role = .owner ∧ entry.bundle.caller = owner
      ∧ entry.bundle.roles.head? = some Role.owner.mesCode)

/-- The checks of the authorization that `_validate_owner` gets back. -/
def authorizes (authorization : ResolvedAuthorization) (owner : TrustedCredential) : Bool :=
  decide (authorization.membership.role = .owner ∧ authorization.membership.tenantId = owner.tenantId
    ∧ authorization.membership.userId = owner.userId ∧ authorization.dataScope.tenantId = owner.tenantId
    ∧ authorization.dataScope.mesFiltered = true)

namespace Fetcher

variable (settings : MesSettings) (gateway : TokenGateway) (fetcher : Fetcher) (fetch : Fetch)

/-- The fetch ends without rows: with an exception, or since none were wanted. -/
def ended : Turn := { gateway, fetcher := { fetcher with fetch := none } }

/-- The fetch awaits something. -/
def awaits (activity : Activity) : Turn :=
  { gateway, fetcher := { fetcher with fetch := some { fetch with activity } } }

/-- `_resolve_owner` after `authenticate`, up to the registry. -/
def resolved (principal : ResolvedPrincipal) : Turn :=
  if principal.role = .owner ∧ (fetch.tenant.all fun tenant => decide (principal.credential.tenantId = tenant)) = true
      ∧ (fetcher.identity.all fun identity => decide (principal.credential = identity)) = true
      ∧ holdsOwner gateway principal.credential = true then
    fetcher.awaits gateway fetch (.checkingTenant principal.credential .resolve)
  else fetcher.ended gateway

/-- `_fetch` up to the exchange, or up to the registry. -/
def start (tenant : Option String) (wanted : Bool) (now : Instant) : Option Turn :=
  match fetcher.fetch with
  | some _ => none
  | none =>
    match gateway.cached fetcher.encrypted now settings.exchangeThresholdSeconds with
    | some entry => some (fetcher.resolved gateway ⟨tenant, wanted, [], .exchanging⟩ entry.principal)
    | none => some (fetcher.awaits gateway ⟨tenant, wanted, [], .exchanging⟩ .exchanging)

/-- The rest of `authenticate`. -/
def exchanged (response : Option MesCredentialBundle) : Option Turn :=
  match fetch.activity, response with
  | .exchanging, none => some (fetcher.ended gateway)
  | .exchanging, some bundle =>
    match gateway.authenticated fetcher.encrypted bundle with
    | none => some (fetcher.ended gateway)
    | some (principal, gateway) => some (fetcher.resolved gateway fetch principal)
  | _, _ => none

/-- `_validate_owner` after `authorize`. A resolved owner becomes the identity, and `bind_for` binds the bundle that its
entry has now; a refreshed bundle is bound as it is. -/
def authorized (owner : TrustedCredential) (authorization : ResolvedAuthorization) (purpose : Purpose) : Turn :=
  if authorizes authorization owner then
    match purpose with
    | .resolve =>
      if fetch.wanted then
        match gateway.entryOf owner with
        | none => { fetcher with identity := some owner }.ended gateway
        | some entry => { fetcher with identity := some owner }.awaits gateway fetch (.walking owner entry.bundle)
      else { fetcher with identity := some owner }.ended gateway
    | .refresh bundle retried => fetcher.awaits gateway fetch (.sending owner bundle (settings.maxRetries + 1) retried)
  else fetcher.ended gateway

/-- `_validate_owner` after the registry: the membership is read, and the directory asked for its departments where it
has none. -/
def tenantChecked (active : Bool) : Option Turn :=
  match fetch.activity with
  | .checkingTenant owner purpose =>
    if active then
      match gateway.resolveMembership owner with
      | none => some (fetcher.ended gateway)
      | some membership =>
        match membership.currentDepts with
        | some deptIds => some (fetcher.authorized settings gateway fetch owner ⟨membership, deptIds⟩ purpose)
        | none => some (fetcher.awaits gateway fetch (.lookingUp owner membership purpose))
    else some (fetcher.ended gateway)
  | _ => none

/-- The rest of `authorize`, once the directory answered. -/
def lookedUp (deptIds : Option (List String)) : Option Turn :=
  match fetch.activity, deptIds with
  | .lookingUp owner membership purpose, some deptIds =>
    some (fetcher.authorized settings gateway fetch owner ⟨membership, deptIds⟩ purpose)
  | .lookingUp _ _ _, none => some (fetcher.ended gateway)
  | _, _ => none

/-- `_refresh` up to the exchange. -/
def refresh (owner : TrustedCredential) (retried : Bool) : Turn :=
  match gateway.entryOf owner with
  | none => fetcher.ended gateway
  | some entry => fetcher.awaits gateway fetch (.refreshing owner entry retried)

/-- `execute` up to the refresh or to the first attempt. -/
def execute (now : Instant) : Option Turn :=
  match fetch.activity with
  | .walking owner current =>
    if current.needsRefresh now settings.refreshThresholdSeconds then some (fetcher.refresh gateway fetch owner false)
    else some (fetcher.awaits gateway fetch (.sending owner current (settings.maxRetries + 1) false))
  | _ => none

/-- `_refresh` after the exchange, up to the registry. -/
def refreshed (response : Option MesCredentialBundle) : Option Turn :=
  match fetch.activity, response with
  | .refreshing _ _ _, none => some (fetcher.ended gateway)
  | .refreshing owner entry retried, some bundle =>
    match gateway.refreshed entry owner bundle with
    | none => some (fetcher.ended gateway)
    | some gateway =>
      if holdsOwner gateway owner then
        some (fetcher.awaits gateway fetch (.checkingTenant owner (.refresh bundle retried)))
      else some (fetcher.ended gateway)
  | _, _ => none

/-- One attempt of `_send`. -/
def attempt (outcome : AttemptOutcome) : Option Turn :=
  match fetch.activity with
  | .sending owner current (attemptsLeft + 1) retried =>
    let turn := match outcome with
      | .transportFailed =>
        if attemptsLeft = 0 then fetcher.ended gateway
        else fetcher.awaits gateway fetch (.sending owner current attemptsLeft retried)
      | .answered =>
        fetcher.awaits gateway { fetch with pages := fetch.pages ++ [current] } (.walking owner current)
      | .unauthenticated =>
        if retried then fetcher.ended gateway else fetcher.refresh gateway fetch owner true
    some { turn with sent := some ⟨fetch.tenant, current⟩ }
  | _ => none

/-- The walk ends, and its rows are returned. -/
def finish : Option Turn :=
  match fetch.activity with
  | .walking owner _ =>
    some { fetcher.ended gateway with snapshot := some ⟨owner.tenantId, fetch.pages⟩ }
  | _ => none

/-- **One action of the fetch of a fetcher.** -/
def act : FetchAction → Option Turn
  | .start tenant wanted now => fetcher.start settings gateway tenant wanted now
  | .exchanged response => fetcher.fetch.bind fun fetch => fetcher.exchanged gateway fetch response
  | .tenantChecked active => fetcher.fetch.bind fun fetch => fetcher.tenantChecked settings gateway fetch active
  | .lookedUp deptIds => fetcher.fetch.bind fun fetch => fetcher.lookedUp settings gateway fetch deptIds
  | .execute now => fetcher.fetch.bind fun fetch => fetcher.execute settings gateway fetch now
  | .refreshed response => fetcher.fetch.bind fun fetch => fetcher.refreshed gateway fetch response
  | .attempt outcome => fetcher.fetch.bind fun fetch => fetcher.attempt gateway fetch outcome
  | .finish => fetcher.fetch.bind fun fetch => fetcher.finish gateway fetch
  | .cancel => fetcher.fetch.map fun _ => fetcher.ended gateway

end Fetcher

/-! ## All fetchers, and the other interactions -/

/-- **The fetchers and the gateway that they share** with all other interactions. -/
structure World where
  gateway : TokenGateway
  fetchers : List Fetcher
  sent : List (Nat × SentPage)
  snapshots : List Snapshot
  deriving DecidableEq

/-- An action of the world. -/
inductive Action where
  /-- Another interaction exchanges a credential, or refreshes one: the entry is stored. -/
  | elsewhere (encrypted : String) (bundle : MesCredentialBundle)
  /-- The fetch of a fetcher acts. -/
  | act (index : Nat) (action : FetchAction)
  deriving DecidableEq

namespace World

/-- The world after a turn of a fetcher. -/
def after (world : World) (index : Nat) (turn : Turn) : World where
  gateway := turn.gateway
  fetchers := world.fetchers.set index turn.fetcher
  sent := world.sent ++ turn.sent.toList.map fun page => (index, page)
  snapshots := world.snapshots ++ turn.snapshot.toList

/-- **One action of the world.** -/
def step (settings : MesSettings) (world : World) : Action → Option World
  | .elsewhere encrypted bundle =>
    (world.gateway.authenticated encrypted bundle).map fun stored => { world with gateway := stored.2 }
  | .act index action =>
    (world.fetchers[index]?).bind fun fetcher => (fetcher.act settings world.gateway action).map (world.after index)

end World

/-- **The machine of the fetchers** with these encrypted credentials. -/
def machine (settings : MesSettings) (encrypted : List String) : Machine World Action :=
  ⟨⟨.empty, encrypted.map fun text => ⟨text, none, none⟩, [], []⟩, World.step settings⟩

/-- A refresh of another interaction stores what an exchange of its credential would. -/
theorem authenticated_of_refreshed {gateway gateway' : TokenGateway} {entry : LiveEntry} {caller : TrustedCredential}
    {bundle : MesCredentialBundle} (h : gateway.refreshed entry caller bundle = some gateway') :
    ∃ principal, gateway.authenticated entry.encryptedCredential bundle = some (principal, gateway') := by
  obtain ⟨principal, hprincipal, -, rfl⟩ := TokenGateway.refreshed_eq_some h
  exact ⟨principal, by rw [TokenGateway.authenticated, hprincipal]; rfl⟩

/-! ## What is expected, and when it is so -/

/-- **Everything was fetched as the owner**: a page was sent with the bundle of an owner, of the tenant that it was for
and of the identity of its fetcher; and a snapshot has only such pages, of its own tenant. -/
def FetchedAsOwner (world : World) : Prop :=
  (∀ entry ∈ world.sent, entry.2.bundle.IsOwner ∧ (∀ tenant ∈ entry.2.tenant, entry.2.bundle.appKey = tenant)
    ∧ ∃ fetcher, world.fetchers[entry.1]? = some fetcher ∧ fetcher.identity = some entry.2.bundle.caller)
  ∧ ∀ snapshot ∈ world.snapshots, ∀ page ∈ snapshot.pages, page.IsOwner ∧ page.appKey = snapshot.tenantId

/-- **The entry is still the owner's**, where a fetch for rows awaits the directory and has read an owner's role. -/
def StillOwner (gateway : TokenGateway) (fetcher : Fetcher) : Prop :=
  ∀ fetch ∈ fetcher.fetch, fetch.wanted = true → ∀ owner membership,
    fetch.activity = .lookingUp owner membership .resolve → membership.role = .owner →
      ∀ entry ∈ gateway.entryOf owner, entry.principal.role = .owner

/-- **The owner is kept**: when the directory answers, the entry is still the owner's. -/
def KeepsOwner (world : World) : Action → Prop
  | .act index (.lookedUp (some _)) => ∀ fetcher ∈ world.fetchers[index]?, StillOwner world.gateway fetcher
  | _ => True

/-! ## Entries of the gateway -/

/-- Every entry is the one of its identity, with the principal of its bundle. -/
def Good (gateway : TokenGateway) : Prop :=
  ∀ owner entry, gateway.entryOf owner = some entry →
    principalFromBundle entry.bundle = some entry.principal ∧ entry.bundle.caller = owner

theorem good_empty : Good .empty := fun _ _ h => nomatch h

/-- An exchange stores an entry of its identity. -/
theorem Good.authenticated {gateway gateway' : TokenGateway} {encrypted : String} {bundle : MesCredentialBundle}
    {principal : ResolvedPrincipal} (h : Good gateway)
    (heq : gateway.authenticated encrypted bundle = some (principal, gateway')) : Good gateway' := by
  obtain ⟨principal', hprincipal, hpair⟩ := Option.map_eq_some_iff.mp heq
  obtain ⟨rfl, rfl⟩ := Prod.mk.inj hpair
  intro owner entry hentry
  rw [TokenGateway.entryOf_store] at hentry
  split at hentry
  · rename_i howner
    obtain rfl := Option.some.inj hentry
    exact ⟨hprincipal, (TokenGateway.principal_credential hprincipal).symm.trans howner.symm⟩
  · exact h owner entry hentry

/-- A refresh stores an entry of its identity. -/
theorem Good.refreshed {gateway gateway' : TokenGateway} {entry : LiveEntry} {caller : TrustedCredential}
    {bundle : MesCredentialBundle} (h : Good gateway) (heq : gateway.refreshed entry caller bundle = some gateway') :
    Good gateway' := by
  obtain ⟨principal, hauthenticated⟩ := authenticated_of_refreshed heq
  exact h.authenticated hauthenticated

/-- An entry with the role of an owner has the bundle of one. -/
theorem Good.isOwner {gateway : TokenGateway} (h : Good gateway) {owner : TrustedCredential} {entry : LiveEntry}
    (hentry : gateway.entryOf owner = some entry) (hrole : entry.principal.role = .owner) : entry.bundle.IsOwner :=
  ⟨entry.principal, (h owner entry hentry).1, hrole⟩

/-- What the synchronous checks find. -/
theorem exists_of_holdsOwner {gateway : TokenGateway} {owner : TrustedCredential} (h : holdsOwner gateway owner = true) :
    ∃ entry, gateway.entryOf owner = some entry ∧ entry.principal.role = .owner := by
  obtain ⟨entry, hentry, hchecks⟩ := (Option.any_eq_true _ _).mp h
  exact ⟨entry, hentry, (of_decide_eq_true hchecks).2.1⟩

/-- A membership is the one of the identity. -/
theorem resolveMembership_eq_some {gateway : TokenGateway} {owner : TrustedCredential} {membership : TenantMembership}
    (h : gateway.resolveMembership owner = some membership) :
    membership.tenantId = owner.tenantId ∧ membership.userId = owner.userId
      ∧ ∃ entry, gateway.entryOf owner = some entry ∧ membership.role = entry.principal.role := by
  obtain ⟨hmap, hsame⟩ := Option.filter_eq_some_iff.mp h
  obtain ⟨entry, hentry, rfl⟩ := Option.map_eq_some_iff.mp hmap
  exact ⟨(of_decide_eq_true hsame).1, (of_decide_eq_true hsame).2, entry, hentry, rfl⟩

/-! ## What a fetch holds -/

section Turns

variable (P : MesCredentialBundle → Prop)

/-- **A bundle of an identity**, with a property. -/
def Owned (bundle : MesCredentialBundle) (owner : TrustedCredential) : Prop :=
  bundle.caller = owner ∧ P bundle

/-- The credential fits the tenant that the fetch is for, and the identity of the fetcher. -/
def Fits (fetcher : Fetcher) (tenant : Option String) (owner : TrustedCredential) : Prop :=
  (∀ expected ∈ tenant, owner.tenantId = expected) ∧ ∀ identity ∈ fetcher.identity, owner = identity

/-- The refreshed bundle is one of the identity. -/
def PurposeHolds (fetcher : Fetcher) (owner : TrustedCredential) : Purpose → Prop
  | .resolve => True
  | .refresh bundle _ => fetcher.identity = some owner ∧ Owned P bundle owner

/-- **What holds while a fetch awaits something.** -/
def ActivityHolds (fetcher : Fetcher) (tenant : Option String) : Activity → Prop
  | .exchanging => True
  | .checkingTenant owner purpose => Fits fetcher tenant owner ∧ PurposeHolds P fetcher owner purpose
  | .lookingUp owner membership purpose =>
    Fits fetcher tenant owner ∧ PurposeHolds P fetcher owner purpose
      ∧ membership.tenantId = owner.tenantId ∧ membership.userId = owner.userId
  | .walking owner current => Fits fetcher tenant owner ∧ fetcher.identity = some owner ∧ Owned P current owner
  | .refreshing owner _ _ => Fits fetcher tenant owner ∧ fetcher.identity = some owner
  | .sending owner current _ _ => Fits fetcher tenant owner ∧ fetcher.identity = some owner ∧ Owned P current owner

/-- The pages that were answered were sent with bundles of the identity. -/
def PagesHold (fetcher : Fetcher) (pages : List MesCredentialBundle) : Prop :=
  ∀ page ∈ pages, ∃ owner, fetcher.identity = some owner ∧ Owned P page owner

/-- **What holds of a fetcher.** -/
def FetcherHolds (fetcher : Fetcher) : Prop :=
  ∀ fetch ∈ fetcher.fetch, ActivityHolds P fetcher fetch.tenant fetch.activity ∧ PagesHold P fetcher fetch.pages

/-- **A sound turn**: it keeps what holds, and the identity; it sends a page with a bundle of the identity, and returns
only such pages. -/
structure Sound (fetcher : Fetcher) (turn : Turn) : Prop where
  good : Good turn.gateway
  holds : FetcherHolds P turn.fetcher
  identity : ∀ owner ∈ fetcher.identity, turn.fetcher.identity = some owner
  sent : ∀ page ∈ turn.sent, (∀ tenant ∈ page.tenant, page.bundle.appKey = tenant)
    ∧ ∃ owner, turn.fetcher.identity = some owner ∧ Owned P page.bundle owner
  snapshot : ∀ snapshot ∈ turn.snapshot, ∀ page ∈ snapshot.pages, P page ∧ page.appKey = snapshot.tenantId

variable {P} {settings : MesSettings} {gateway : TokenGateway} {fetcher : Fetcher} {fetch : Fetch}

theorem Sound.ended (h : Good gateway) : Sound P fetcher (fetcher.ended gateway) where
  good := h
  holds := fun _ hfetch => nomatch hfetch
  identity := fun _ howner => howner
  sent := fun _ hpage => nomatch hpage
  snapshot := fun _ hsnapshot => nomatch hsnapshot

theorem Sound.awaits (h : Good gateway) {activity : Activity} (hactivity : ActivityHolds P fetcher fetch.tenant activity)
    (hpages : PagesHold P fetcher fetch.pages) : Sound P fetcher (fetcher.awaits gateway fetch activity) where
  good := h
  holds := fun _ hfetch => Option.some.inj hfetch ▸ ⟨hactivity, hpages⟩
  identity := fun _ howner => howner
  sent := fun _ hpage => nomatch hpage
  snapshot := fun _ hsnapshot => nomatch hsnapshot

/-- The identity is set to the credential that fits it. -/
theorem Sound.identify {owner : TrustedCredential} {turn : Turn} (hfits : Fits fetcher fetch.tenant owner)
    (h : Sound P { fetcher with identity := some owner } turn) : Sound P fetcher turn :=
  { h with identity := fun identity hidentity => h.identity identity (congrArg some (hfits.2 identity hidentity)) }

/-- Pages are still of the identity once it is set. -/
theorem PagesHold.identify {owner : TrustedCredential} (hfits : Fits fetcher fetch.tenant owner)
    {pages : List MesCredentialBundle} (h : PagesHold P fetcher pages) :
    PagesHold P { fetcher with identity := some owner } pages := by
  intro page hpage
  obtain ⟨identity, hidentity, howned⟩ := h page hpage
  exact ⟨identity, congrArg some (hfits.2 identity hidentity), howned⟩

/-- `_resolve_owner` after `authenticate` is sound. -/
theorem sound_resolved (h : Good gateway) (hpages : PagesHold P fetcher fetch.pages) (principal : ResolvedPrincipal) :
    Sound P fetcher (fetcher.resolved gateway fetch principal) := by
  unfold Fetcher.resolved
  split
  · rename_i hchecks
    obtain ⟨-, htenant, hidentity, -⟩ := hchecks
    refine Sound.awaits h ⟨⟨fun expected hexpected => ?_, fun identity hmem => ?_⟩, trivial⟩ hpages
    · rw [hexpected] at htenant
      exact of_decide_eq_true htenant
    · rw [hmem] at hidentity
      exact of_decide_eq_true hidentity
  · exact Sound.ended h

/-- `_validate_owner` after `authorize` is sound, where the bundle that is bound has the property. -/
theorem sound_authorized (h : Good gateway) (hpages : PagesHold P fetcher fetch.pages) {owner : TrustedCredential}
    {authorization : ResolvedAuthorization} {purpose : Purpose} (hfits : Fits fetcher fetch.tenant owner)
    (hpurpose : PurposeHolds P fetcher owner purpose)
    (hbound : purpose = .resolve → fetch.wanted = true → authorizes authorization owner = true →
      ∀ entry, gateway.entryOf owner = some entry → P entry.bundle) :
    Sound P fetcher (fetcher.authorized settings gateway fetch owner authorization purpose) := by
  unfold Fetcher.authorized
  split
  · rename_i hauthorizes
    cases purpose with
    | resolve =>
      dsimp only
      split
      · rename_i hwanted
        split
        · exact Sound.identify hfits (Sound.ended h)
        · rename_i entry hentry
          exact Sound.identify hfits (Sound.awaits h ⟨⟨hfits.1, fun _ hidentity => Option.some.inj hidentity⟩, rfl,
            (h owner entry hentry).2, hbound rfl hwanted hauthorizes entry hentry⟩ (hpages.identify hfits))
      · exact Sound.identify hfits (Sound.ended h)
    | refresh bundle retried => exact Sound.awaits h ⟨hfits, hpurpose.1, hpurpose.2⟩ hpages
  · exact Sound.ended h

/-- `_refresh` up to the exchange is sound. -/
theorem sound_refresh (h : Good gateway) (hpages : PagesHold P fetcher fetch.pages) {owner : TrustedCredential}
    (hfits : Fits fetcher fetch.tenant owner) (hidentity : fetcher.identity = some owner) (retried : Bool) :
    Sound P fetcher (fetcher.refresh gateway fetch owner retried) := by
  unfold Fetcher.refresh
  split
  · exact Sound.ended h
  · exact Sound.awaits h ⟨hfits, hidentity⟩ hpages

/-- The role that an authorization must have. -/
theorem role_of_authorizes {authorization : ResolvedAuthorization} {owner : TrustedCredential}
    (h : authorizes authorization owner = true) : authorization.membership.role = .owner :=
  (of_decide_eq_true h).1

/-- `_validate_owner` after the registry is sound: without a lookup the role is the one of the entry that is bound. -/
theorem sound_tenantChecked (h : Good gateway) (hP : ∀ bundle : MesCredentialBundle, bundle.IsOwner → P bundle)
    (hactivity : ActivityHolds P fetcher fetch.tenant fetch.activity) (hpages : PagesHold P fetcher fetch.pages)
    {active : Bool} {turn : Turn} (hturn : fetcher.tenantChecked settings gateway fetch active = some turn) :
    Sound P fetcher turn := by
  unfold Fetcher.tenantChecked at hturn
  split at hturn
  · rename_i owner purpose hchecking
    rw [hchecking] at hactivity
    obtain ⟨hfits, hpurpose⟩ := hactivity
    split at hturn
    · split at hturn
      · cases hturn
        exact Sound.ended h
      · rename_i membership hmembership
        obtain ⟨htenant, huser, entry, hentry, hrole⟩ := resolveMembership_eq_some hmembership
        split at hturn
        · cases hturn
          refine sound_authorized h hpages hfits hpurpose fun _ _ hauthorizes entry' hentry' => ?_
          obtain rfl : entry = entry' := Option.some.inj (hentry.symm.trans hentry')
          exact hP _ (h.isOwner hentry (hrole.symm.trans (role_of_authorizes hauthorizes)))
        · cases hturn
          exact Sound.awaits h ⟨hfits, hpurpose, htenant, huser⟩ hpages
    · cases hturn
      exact Sound.ended h
  · cases hturn

/-- The rest of `authorize` is sound, where the entry that is bound has the property. -/
theorem sound_lookedUp (h : Good gateway) (hactivity : ActivityHolds P fetcher fetch.tenant fetch.activity)
    (hpages : PagesHold P fetcher fetch.pages) {deptIds : Option (List String)}
    (hstill : deptIds.isSome = true → fetch.wanted = true → ∀ owner membership,
      fetch.activity = .lookingUp owner membership .resolve → membership.role = .owner →
        ∀ entry, gateway.entryOf owner = some entry → P entry.bundle)
    {turn : Turn} (hturn : fetcher.lookedUp settings gateway fetch deptIds = some turn) : Sound P fetcher turn := by
  unfold Fetcher.lookedUp at hturn
  split at hturn
  · rename_i owner membership purpose deptIds hlooking
    rw [hlooking] at hactivity
    obtain ⟨hfits, hpurpose, -, -⟩ := hactivity
    cases hturn
    refine sound_authorized h hpages hfits hpurpose fun hresolve hwanted hauthorizes => ?_
    exact hstill rfl hwanted owner membership (hresolve ▸ hlooking) (role_of_authorizes hauthorizes)
  · cases hturn
    exact Sound.ended h
  · cases hturn

/-- `execute` is sound. -/
theorem sound_execute (h : Good gateway) (hactivity : ActivityHolds P fetcher fetch.tenant fetch.activity)
    (hpages : PagesHold P fetcher fetch.pages) {now : Instant} {turn : Turn}
    (hturn : fetcher.execute settings gateway fetch now = some turn) : Sound P fetcher turn := by
  unfold Fetcher.execute at hturn
  split at hturn
  · rename_i owner current hwalking
    rw [hwalking] at hactivity
    obtain ⟨hfits, hidentity, howned⟩ := hactivity
    split at hturn
    · cases hturn
      exact sound_refresh h hpages hfits hidentity false
    · cases hturn
      exact Sound.awaits h ⟨hfits, hidentity, howned⟩ hpages
  · cases hturn

/-- `_refresh` after the exchange is sound: the checks are made on the entry that was just stored. -/
theorem sound_refreshed (h : Good gateway) (hP : ∀ bundle : MesCredentialBundle, bundle.IsOwner → P bundle)
    (hactivity : ActivityHolds P fetcher fetch.tenant fetch.activity) (hpages : PagesHold P fetcher fetch.pages)
    {response : Option MesCredentialBundle} {turn : Turn} (hturn : fetcher.refreshed gateway fetch response = some turn) :
    Sound P fetcher turn := by
  unfold Fetcher.refreshed at hturn
  split at hturn
  · cases hturn
    exact Sound.ended h
  · rename_i owner entry retried bundle hrefreshing
    rw [hrefreshing] at hactivity
    obtain ⟨hfits, hidentity⟩ := hactivity
    split at hturn
    · cases hturn
      exact Sound.ended h
    · rename_i gateway' hrefreshed
      have hgood := h.refreshed hrefreshed
      split at hturn
      · rename_i hholds
        cases hturn
        obtain ⟨principal, hprincipal, hcaller, rfl⟩ := TokenGateway.refreshed_eq_some hrefreshed
        obtain ⟨stored, hstored, hrole⟩ := exists_of_holdsOwner hholds
        have hself := (TokenGateway.principal_credential hprincipal).trans hcaller
        rw [TokenGateway.entryOf_store, if_pos hself.symm] at hstored
        obtain rfl := Option.some.inj hstored
        exact Sound.awaits hgood ⟨hfits, hidentity, hcaller, hP _ ⟨principal, hprincipal, hrole⟩⟩ hpages
      · cases hturn
        exact Sound.ended hgood
  · cases hturn

/-- One attempt is sound: the page is sent with the bundle of the identity. -/
theorem sound_attempt (h : Good gateway) (hactivity : ActivityHolds P fetcher fetch.tenant fetch.activity)
    (hpages : PagesHold P fetcher fetch.pages) {outcome : AttemptOutcome} {turn : Turn}
    (hturn : fetcher.attempt gateway fetch outcome = some turn) : Sound P fetcher turn := by
  unfold Fetcher.attempt at hturn
  split at hturn
  · rename_i owner current attemptsLeft retried hsending
    rw [hsending] at hactivity
    obtain ⟨hfits, hidentity, howned⟩ := hactivity
    -- Whatever the outcome, what is left to do is sound and keeps the identity.
    have hrest : ∀ next : Turn, Sound P fetcher next → Sound P fetcher { next with sent := some ⟨fetch.tenant, current⟩ } :=
      fun next hnext => { hnext with
        sent := fun page hpage => by
          obtain rfl := Option.some.inj hpage
          exact ⟨fun tenant htenant => (congrArg TrustedCredential.tenantId howned.1).trans (hfits.1 tenant htenant), owner,
            hnext.identity owner hidentity, howned⟩ }
    cases hturn
    refine hrest _ ?_
    cases outcome with
    | transportFailed =>
      dsimp only
      split
      · exact Sound.ended h
      · exact Sound.awaits h ⟨hfits, hidentity, howned⟩ hpages
    | answered =>
      have hanswered : PagesHold P fetcher (fetch.pages ++ [current]) := by
        intro page hpage
        rcases List.mem_append.mp hpage with hold | hnew
        · exact hpages page hold
        · exact ⟨owner, hidentity, List.mem_singleton.mp hnew ▸ howned⟩
      exact Sound.awaits h ⟨hfits, hidentity, howned⟩ hanswered
    | unauthenticated =>
      dsimp only
      split
      · exact Sound.ended h
      · exact sound_refresh h hpages hfits hidentity true
  · cases hturn

/-- The end of the walk is sound. -/
theorem sound_finish (h : Good gateway) (hactivity : ActivityHolds P fetcher fetch.tenant fetch.activity)
    (hpages : PagesHold P fetcher fetch.pages) {turn : Turn} (hturn : fetcher.finish gateway fetch = some turn) :
    Sound P fetcher turn := by
  unfold Fetcher.finish at hturn
  split at hturn
  · rename_i owner current hwalking
    rw [hwalking] at hactivity
    obtain ⟨-, hidentity, -⟩ := hactivity
    cases hturn
    refine { Sound.ended h with snapshot := fun snapshot hsnapshot page hpage => ?_ }
    obtain rfl := Option.some.inj hsnapshot
    obtain ⟨identity, hmem, hcaller, hp⟩ := hpages page hpage
    obtain rfl : owner = identity := Option.some.inj (hidentity.symm.trans hmem)
    exact ⟨hp, congrArg TrustedCredential.tenantId hcaller⟩
  · cases hturn

/-- **Every action of a fetch is sound**, where the entry that is bound after a lookup has the property. -/
theorem sound_act (h : Good gateway) (hP : ∀ bundle : MesCredentialBundle, bundle.IsOwner → P bundle)
    (hfetcher : FetcherHolds P fetcher) {action : FetchAction} {turn : Turn}
    (hstill : ∀ deptIds, action = .lookedUp (some deptIds) → ∀ fetch ∈ fetcher.fetch, fetch.wanted = true →
      ∀ owner membership, fetch.activity = .lookingUp owner membership .resolve → membership.role = .owner →
        ∀ entry, gateway.entryOf owner = some entry → P entry.bundle)
    (hturn : fetcher.act settings gateway action = some turn) : Sound P fetcher turn := by
  cases action with
  | start tenant wanted now =>
    simp only [Fetcher.act, Fetcher.start] at hturn
    split at hturn
    · cases hturn
    · split at hturn
      · cases hturn
        exact sound_resolved h (fun _ hpage => absurd hpage List.not_mem_nil) _
      · cases hturn
        exact Sound.awaits h trivial fun _ hpage => absurd hpage List.not_mem_nil
  | exchanged response =>
    obtain ⟨fetch, hfetch, hturn⟩ := Option.bind_eq_some_iff.mp hturn
    obtain ⟨-, hpages⟩ := hfetcher fetch hfetch
    unfold Fetcher.exchanged at hturn
    split at hturn
    · cases hturn
      exact Sound.ended h
    · split at hturn
      · cases hturn
        exact Sound.ended h
      · rename_i hauthenticated
        cases hturn
        exact sound_resolved (h.authenticated hauthenticated) hpages _
    · cases hturn
  | tenantChecked active =>
    obtain ⟨fetch, hfetch, hturn⟩ := Option.bind_eq_some_iff.mp hturn
    exact sound_tenantChecked h hP (hfetcher fetch hfetch).1 (hfetcher fetch hfetch).2 hturn
  | lookedUp deptIds =>
    obtain ⟨fetch, hfetch, hturn⟩ := Option.bind_eq_some_iff.mp hturn
    refine sound_lookedUp h (hfetcher fetch hfetch).1 (hfetcher fetch hfetch).2 (fun hsome => ?_) hturn
    obtain ⟨depts, rfl⟩ := Option.isSome_iff_exists.mp hsome
    exact hstill depts rfl fetch hfetch
  | execute now =>
    obtain ⟨fetch, hfetch, hturn⟩ := Option.bind_eq_some_iff.mp hturn
    exact sound_execute h (hfetcher fetch hfetch).1 (hfetcher fetch hfetch).2 hturn
  | refreshed response =>
    obtain ⟨fetch, hfetch, hturn⟩ := Option.bind_eq_some_iff.mp hturn
    exact sound_refreshed h hP (hfetcher fetch hfetch).1 (hfetcher fetch hfetch).2 hturn
  | attempt outcome =>
    obtain ⟨fetch, hfetch, hturn⟩ := Option.bind_eq_some_iff.mp hturn
    exact sound_attempt h (hfetcher fetch hfetch).1 (hfetcher fetch hfetch).2 hturn
  | finish =>
    obtain ⟨fetch, hfetch, hturn⟩ := Option.bind_eq_some_iff.mp hturn
    exact sound_finish h (hfetcher fetch hfetch).1 (hfetcher fetch hfetch).2 hturn
  | cancel =>
    obtain ⟨fetch, hfetch, rfl⟩ := Option.map_eq_some_iff.mp hturn
    exact Sound.ended h

end Turns

/-! ## Along the runs -/

section Runs

variable (P : MesCredentialBundle → Prop)

/-- **What holds of the world**: of the gateway, of every fetcher, of every page that was sent, and of every snapshot. -/
structure WorldHolds (world : World) : Prop where
  good : Good world.gateway
  fetchers : ∀ fetcher ∈ world.fetchers, FetcherHolds P fetcher
  sent : ∀ entry ∈ world.sent, (∀ tenant ∈ entry.2.tenant, entry.2.bundle.appKey = tenant)
    ∧ ∃ fetcher, world.fetchers[entry.1]? = some fetcher ∧ ∃ owner, fetcher.identity = some owner
      ∧ Owned P entry.2.bundle owner
  snapshots : ∀ snapshot ∈ world.snapshots, ∀ page ∈ snapshot.pages, P page ∧ page.appKey = snapshot.tenantId

/-- The identity of a fetcher. -/
def World.identity? (world : World) (index : Nat) : Option TrustedCredential :=
  (world.fetchers[index]?).bind Fetcher.identity

variable {P} {settings : MesSettings} {encrypted : List String} {world world' : World}

theorem worldHolds_init : WorldHolds P (machine settings encrypted).init where
  good := good_empty
  fetchers := fun fetcher hmem fetch hfetch => by
    obtain ⟨text, -, rfl⟩ := List.mem_map.mp hmem
    cases hfetch
  sent := fun _ hentry => absurd hentry List.not_mem_nil
  snapshots := fun _ hsnapshot => absurd hsnapshot List.not_mem_nil

/-- The fetchers after a turn: the identity of each is kept. -/
theorem identity_after {index : Nat} {fetcher : Fetcher} {turn : Turn} (hfetcher : world.fetchers[index]? = some fetcher)
    (hkept : ∀ owner ∈ fetcher.identity, turn.fetcher.identity = some owner) {other : Nat} {owner : TrustedCredential}
    (h : world.identity? other = some owner) : (world.after index turn).identity? other = some owner := by
  obtain ⟨before, hbefore, hidentity⟩ := Option.bind_eq_some_iff.mp h
  have hlt := (List.getElem?_eq_some_iff.mp hfetcher).1
  show ((world.fetchers.set index turn.fetcher)[other]?).bind Fetcher.identity = some owner
  rw [List.getElem?_set]
  split
  · rename_i hsame
    subst hsame
    obtain rfl := Option.some.inj (hfetcher.symm.trans hbefore)
    exact hkept owner hidentity
  · exact h

/-- **One action** keeps what holds, and every identity. -/
theorem worldHolds_step (h : WorldHolds P world) (hP : ∀ bundle : MesCredentialBundle, bundle.IsOwner → P bundle)
    {action : Action} (hstill : ∀ index deptIds, action = .act index (.lookedUp (some deptIds)) →
      ∀ fetcher ∈ world.fetchers[index]?, ∀ fetch ∈ fetcher.fetch, fetch.wanted = true → ∀ owner membership,
        fetch.activity = .lookingUp owner membership .resolve → membership.role = .owner →
          ∀ entry, world.gateway.entryOf owner = some entry → P entry.bundle)
    (hstep : world.step settings action = some world') :
    WorldHolds P world' ∧ ∀ index owner, world.identity? index = some owner → world'.identity? index = some owner := by
  cases action with
  | elsewhere text bundle =>
    obtain ⟨⟨principal, gateway⟩, hstored, rfl⟩ := Option.map_eq_some_iff.mp hstep
    exact ⟨{ h with good := h.good.authenticated hstored }, fun _ _ hidentity => hidentity⟩
  | act index action =>
    obtain ⟨fetcher, hfetcher, hact⟩ := Option.bind_eq_some_iff.mp hstep
    obtain ⟨turn, hturn, rfl⟩ := Option.map_eq_some_iff.mp hact
    have hsound := sound_act h.good hP (h.fetchers fetcher (List.mem_of_getElem? hfetcher))
      (fun deptIds heq => hstill index deptIds (congrArg (Action.act index) heq) fetcher hfetcher) hturn
    have hlt := (List.getElem?_eq_some_iff.mp hfetcher).1
    have hidentity : ∀ other owner, world.identity? other = some owner →
        (world.after index turn).identity? other = some owner := fun _ _ => identity_after hfetcher hsound.identity
    refine ⟨⟨hsound.good, fun other hother => ?_, fun entry hentry => ?_, fun snapshot hsnapshot => ?_⟩, hidentity⟩
    · rcases List.mem_or_eq_of_mem_set hother with hmem | rfl
      · exact h.fetchers other hmem
      · exact hsound.holds
    · rcases List.mem_append.mp hentry with hold | hnew
      · obtain ⟨htenant, before, hbefore, owner, howner, howned⟩ := h.sent entry hold
        obtain ⟨after, hafter, hsame⟩ := Option.bind_eq_some_iff.mp
          (hidentity entry.1 owner (Option.bind_eq_some_iff.mpr ⟨before, hbefore, howner⟩))
        exact ⟨htenant, after, hafter, owner, hsame, howned⟩
      · obtain ⟨page, hpage, rfl⟩ := List.mem_map.mp hnew
        obtain ⟨htenant, howner⟩ := hsound.sent page (Option.mem_toList.mp hpage)
        exact ⟨htenant, turn.fetcher, List.getElem?_set_self hlt, howner⟩
    · rcases List.mem_append.mp hsnapshot with hold | hnew
      · exact h.snapshots snapshot hold
      · exact hsound.snapshot snapshot (Option.mem_toList.mp hnew)

/-- What holds in a run that keeps the owner. -/
theorem worldHolds_of_reach (h : Machine.Reach (machine settings encrypted) KeepsOwner world) :
    WorldHolds MesCredentialBundle.IsOwner world := by
  refine h.invariant worldHolds_init fun hholds hguard hstep => (worldHolds_step hholds (fun _ h => h) ?_ hstep).1
  rintro index deptIds rfl fetcher hfetcher fetch hfetch hwanted owner membership hlooking hrole entry hentry
  exact hholds.good.isOwner hentry (hguard fetcher hfetcher fetch hfetch hwanted owner membership hlooking hrole entry hentry)

/-- What holds in every run. -/
theorem worldHolds_of_free (h : Machine.Reach (machine settings encrypted) Machine.free world) :
    WorldHolds (fun _ => True) world :=
  h.invariant worldHolds_init fun hholds _ hstep =>
    (worldHolds_step hholds (fun _ _ => trivial) (fun _ _ _ _ _ _ _ _ _ _ _ _ _ _ => trivial) hstep).1

/-- **An identity is never given up.** -/
theorem identity_kept (h : Machine.Reach (machine settings encrypted) Machine.free world)
    (hsteps : Machine.Steps (machine settings encrypted) Machine.free world world') {index : Nat}
    {owner : TrustedCredential} (hidentity : world.identity? index = some owner) :
    world'.identity? index = some owner := by
  refine Machine.Steps.lift (I := WorldHolds fun _ => True)
    (R := fun world world' => ∀ index owner, world.identity? index = some owner → world'.identity? index = some owner)
    (fun _ _ _ h => h) (fun hst htu index owner h => htu index owner (hst index owner h))
    (fun hholds _ hstep => ?_) (fun hholds _ hstep => ?_) (worldHolds_of_free h) hsteps index owner hidentity
  · exact (worldHolds_step hholds (fun _ _ => trivial) (fun _ _ _ _ _ _ _ _ _ _ _ _ _ _ => trivial) hstep).1
  · exact (worldHolds_step hholds (fun _ _ => trivial) (fun _ _ _ _ _ _ _ _ _ _ _ _ _ _ => trivial) hstep).2

/-- Everything was fetched as the owner in a run that keeps the owner. -/
theorem WorldHolds.fetchedAsOwner (h : WorldHolds MesCredentialBundle.IsOwner world) : FetchedAsOwner world := by
  refine ⟨fun entry hentry => ?_, h.snapshots⟩
  obtain ⟨htenant, fetcher, hfetcher, owner, howner, hcaller, hisOwner⟩ := h.sent entry hentry
  exact ⟨hisOwner, htenant, fetcher, hfetcher, hcaller ▸ howner⟩

/-- A fetcher acts. -/
theorem step_act {index : Nat} {fetcher : Fetcher} {action : FetchAction} {turn : Turn}
    (hfetcher : world.fetchers[index]? = some fetcher) (hturn : fetcher.act settings world.gateway action = some turn) :
    (machine settings encrypted).step world (.act index action) = some (world.after index turn) := by
  show world.step settings (.act index action) = _
  simp only [World.step, hfetcher, Option.bind_some, hturn, Option.map_some]

/-- A fetcher after its turn. -/
theorem getElem?_after {index : Nat} {fetcher : Fetcher} (hfetcher : world.fetchers[index]? = some fetcher) (turn : Turn) :
    (world.after index turn).fetchers[index]? = some turn.fetcher :=
  List.getElem?_set_self (List.getElem?_eq_some_iff.mp hfetcher).1

/-- Before some instant a bundle needs no refresh. -/
theorem exists_needsRefresh_eq_false (bundle : MesCredentialBundle) (threshold : Int) :
    ∃ now, bundle.needsRefresh now threshold = false := by
  refine ⟨bundle.expiresAt - 1000000 * (threshold.natAbs + 1), decide_eq_false ?_⟩
  have hseconds : bundle.secondsUntilExpiry (bundle.expiresAt - 1000000 * (threshold.natAbs + 1))
      = (threshold.natAbs : Int) + 1 := by
    show (bundle.expiresAt - (bundle.expiresAt - 1000000 * ((threshold.natAbs : Int) + 1))).tdiv 1000000 = _
    rw [Int.sub_sub_self, Int.mul_tdiv_cancel_left _ (by decide)]
  rw [hseconds]
  omega

/-- **A walk sends a page** with its bundle. -/
theorem exists_sent_of_walking {index : Nat} {fetcher : Fetcher} {fetch : Fetch} {owner : TrustedCredential}
    {current : MesCredentialBundle} (hfetcher : world.fetchers[index]? = some fetcher)
    (hfetch : fetcher.fetch = some fetch) (hwalking : fetch.activity = .walking owner current) :
    ∃ later, Machine.Steps (machine settings encrypted) Machine.free world later
      ∧ (index, ⟨fetch.tenant, current⟩) ∈ later.sent := by
  obtain ⟨now, hnow⟩ := exists_needsRefresh_eq_false current settings.refreshThresholdSeconds
  have hexecute : fetcher.act settings world.gateway (.execute now)
      = some (fetcher.awaits world.gateway fetch (.sending owner current (settings.maxRetries + 1) false)) := by
    simp only [Fetcher.act, hfetch, Option.bind_some, Fetcher.execute, hwalking, hnow]
    rfl
  have hattempt : ∀ world : World, { fetcher with
      fetch := some { fetch with activity := .sending owner current (settings.maxRetries + 1) false } }.act settings
        world.gateway (.attempt .answered)
      = some { fetcher.awaits world.gateway { fetch with pages := fetch.pages ++ [current] } (.walking owner current)
          with sent := some ⟨fetch.tenant, current⟩ } := fun _ => rfl
  refine ⟨_, .tail (.tail .refl trivial (step_act hfetcher hexecute)) trivial
    (step_act (getElem?_after hfetcher _) (hattempt _)), ?_⟩
  exact List.mem_append_right _ (List.mem_singleton.mpr rfl)

/-- **Where the owner is not kept**, a page is sent with a bundle that is not an owner's, or may be. -/
theorem not_fetchedAsOwner_of_not_keeps (h : WorldHolds MesCredentialBundle.IsOwner world) {action : Action}
    (hstep : (machine settings encrypted).step world action = some world') (hnot : ¬ KeepsOwner world action) :
    ∃ later, Machine.Steps (machine settings encrypted) Machine.free world' later ∧ ¬ FetchedAsOwner later := by
  unfold KeepsOwner at hnot
  split at hnot
  · rename_i index deptIds
    simp only [StillOwner, not_forall] at hnot
    obtain ⟨fetcher, hfetcher, fetch, hfetch, hwanted, owner, membership, hlooking, hrole, entry, hentry, hnarrow⟩ := hnot
    obtain ⟨-, -, htenant, huser⟩ := hlooking ▸ (h.fetchers fetcher (List.mem_of_getElem? hfetcher) fetch hfetch).1
    have hauthorizes : authorizes ⟨membership, deptIds⟩ owner = true :=
      decide_eq_true ⟨hrole, htenant, huser, htenant, decide_eq_true hrole⟩
    have hact : fetcher.act settings world.gateway (.lookedUp (some deptIds))
        = some ({ fetcher with identity := some owner }.awaits world.gateway fetch (.walking owner entry.bundle)) := by
      rw [Option.mem_def] at hfetch hentry
      simp only [Fetcher.act, hfetch, Option.bind_some, Fetcher.lookedUp, hlooking, Fetcher.authorized, hauthorizes,
        hwanted, hentry, if_true]
    obtain rfl := Option.some.inj ((step_act hfetcher hact).symm.trans hstep)
    have hwalks := getElem?_after hfetcher
      ({ fetcher with identity := some owner }.awaits world.gateway fetch (.walking owner entry.bundle))
    obtain ⟨later, hlater, hsent⟩ := @exists_sent_of_walking settings encrypted _ index _
      { fetch with activity := .walking owner entry.bundle } owner entry.bundle hwalks rfl rfl
    refine ⟨later, hlater, fun hall => ?_⟩
    obtain ⟨principal, hprincipal, hisOwner⟩ := (hall.1 _ hsent).1
    obtain rfl := Option.some.inj ((h.good owner entry hentry).1.symm.trans hprincipal)
    exact hnarrow hisOwner
  · exact absurd trivial hnot

end Runs

/-- What the token endpoint answers for a user without departments. -/
def token (role : String) : MesCredentialBundle :=
  ⟨0, "token", "plant", "sign", 1, 86400000000, "boss", "Boss", [role], "", []⟩

/-- The owner is resolved, another interaction gets a token of a narrower role while the directory is asked, and a page
is sent. -/
def demotedRun : List Action :=
  [.act 0 (.start (some "plant") true 0), .act 0 (.exchanged (some (token "99"))), .act 0 (.tenantChecked true),
    .elsewhere "credential" (token "00"), .act 0 (.lookedUp (some ["line"])), .act 0 (.execute 0),
    .act 0 (.attempt .answered)]

end OwnerSnapshots
