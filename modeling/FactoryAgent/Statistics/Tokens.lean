import FactoryAgent.Lib.Base64
import FactoryAgent.Lib.DecimalValue
import FactoryAgent.Lib.IntText
import FactoryAgent.Lib.Json
import FactoryAgent.Lib.LocalTime
import FactoryAgent.Statistics.TenantRegistry

/-!
# The tokens of the statistics service

The bearer tokens of `statistics/platform_auth.py` and the download tokens of `statistics/exports.py`. A bearer token is
a payload and its signature, and a download token an id, an expiry and their signature, with dots between the parts.

Where the signatures can be compared, a token is accepted exactly where it was issued under the secret and has not
expired. `hmac.compare_digest` compares texts of ASCII only and raises a `TypeError` for any other, which nothing
catches (`tokensVerified_iff`).

The keyed digest is a parameter, written in hexadecimal digits. That it cannot be forged is a hypothesis on the token:
where it ends with the digest of what is before it, this was signed. The two services may share their secret; what one
signs is no token of the other, as only one of them signs texts with a dot. Times are in microseconds, and the seconds
of `timestamp()` are taken exactly, as a double has them for every instant before 2242.
-/

namespace Statistics

open LocalTime (Utc)

/-! ## Parts -/

/-- The parts of a text do not have the separator. -/
theorem not_mem_of_mem_splitOn {x : Char} {cs part : List Char} (h : part ∈ cs.splitOn x) : x ∉ part := by
  induction cs generalizing part with
  | nil =>
    rw [List.splitOn_nil, List.mem_singleton] at h
    rw [h]
    exact List.not_mem_nil
  | cons c cs ih =>
    rw [List.splitOn_cons_eq_if_modifyHead] at h
    split_ifs at h with hc
    · rcases List.mem_cons.mp h with rfl | h
      · exact List.not_mem_nil
      · exact ih h
    · cases hparts : cs.splitOn x with
      | nil => exact absurd hparts (List.splitOn_ne_nil x cs)
      | cons head parts =>
        rw [hparts, List.modifyHead_cons] at h
        rcases List.mem_cons.mp h with rfl | h
        · rw [List.mem_cons]
          refine not_or.mpr ⟨fun heq => hc (beq_iff_eq.mpr heq.symm), ih (hparts ▸ List.mem_cons_self)⟩
        · exact ih (hparts ▸ List.mem_cons_of_mem _ h)

/-- **The parts of a text** are those between its separators. -/
theorem splitOn_eq_iff {x : Char} {cs : List Char} {parts : List (List Char)} (hparts : parts ≠ []) :
    cs.splitOn x = parts ↔ [x].intercalate parts = cs ∧ ∀ part ∈ parts, x ∉ part := by
  constructor
  · rintro rfl
    exact ⟨List.intercalate_splitOn x, fun part => not_mem_of_mem_splitOn⟩
  · rintro ⟨rfl, hfree⟩
    exact List.splitOn_intercalate x hfree hparts

/-- Two parts. -/
theorem splitOn_pair_iff {x : Char} {cs first second : List Char} :
    cs.splitOn x = [first, second] ↔ cs = first ++ x :: second ∧ x ∉ first ∧ x ∉ second := by
  rw [splitOn_eq_iff (List.cons_ne_nil _ _)]
  simp only [List.forall_mem_cons, List.not_mem_nil, false_imp_iff, implies_true, and_true]
  simp [List.intercalate, eq_comm]

/-- Three parts. -/
theorem splitOn_triple_iff {x : Char} {cs first second third : List Char} :
    cs.splitOn x = [first, second, third]
      ↔ cs = first ++ x :: (second ++ x :: third) ∧ x ∉ first ∧ x ∉ second ∧ x ∉ third := by
  rw [splitOn_eq_iff (List.cons_ne_nil _ _)]
  simp only [List.forall_mem_cons, List.not_mem_nil, false_imp_iff, implies_true, and_true]
  simp [List.intercalate, eq_comm]

/-! ## Digests -/

/-- **A keyed digest** in hexadecimal digits, `hmac.new(secret, message, sha256).hexdigest()`. -/
structure Hmac where
  digest : String → String → String
  hex : ∀ secret message, ∀ c ∈ (digest secret message).toList, c ∈ "0123456789abcdef".toList

/-- What is raised. -/
inductive Raised where
  | typeError
  deriving DecidableEq, Repr

/-- `str.isascii` -/
def isAscii (text : String) : Bool :=
  text.toList.all (·.toNat < 128)

/-- **`hmac.compare_digest`**, of texts. -/
def compareDigest (a b : String) : Except Raised Bool :=
  if isAscii a && isAscii b then .ok (a == b) else .error .typeError

/-- A text with its digest. -/
def signedText (hmac : Hmac) (secret message : String) : String :=
  message ++ "." ++ hmac.digest secret message

/-- **A token is not forged**: where it is a text with its digest, the text was signed. -/
def Unforged (hmac : Hmac) (secret : String) (signed : List String) (token : String) : Prop :=
  ∀ message, token = signedText hmac secret message → message ∈ signed

/-! ## Bearer tokens -/

/-- `PlatformRole.value` -/
def PlatformRole.value : PlatformRole → String
  | viewer => "viewer"
  | analyst => "analyst"
  | admin => "admin"

/-- `PlatformRole.parse` -/
def PlatformRole.parse (raw : String) : Option PlatformRole :=
  [viewer, analyst, admin].find? fun role => role.value = raw

/-- What `AuthService` is set up with. -/
structure AuthConfig where
  secret : String
  apiToken : Option String
  ttlSeconds : Int

/-- **A login**: the account that a token is issued for, and when. -/
structure Login where
  principalId : String
  role : PlatformRole
  tenantScope : List String
  issuedAt : Int

/-- The second that the token of a login expires at. -/
def Login.expires (config : AuthConfig) (login : Login) : Int :=
  (login.issuedAt + config.ttlSeconds * 1000000).tdiv 1000000

/-- The payload of a login. -/
def Login.payload (config : AuthConfig) (login : Login) : List (String × Json) :=
  [("sub", .str login.principalId), ("role", .str login.role.value), ("tenants", .arr (login.tenantScope.map .str)),
    ("exp", .int (login.expires config))]

/-- `_b64url_encode` -/
def b64urlEncode (data : ByteArray) : String :=
  String.ofList (Base64.dropPadding (Base64.urlsafeEncode data).toList)

/-- `_b64url_decode`; `none` is a raised `ValueError`. -/
def b64urlDecode (raw : List Char) : Option ByteArray :=
  if raw.all (·.toNat < 128) then Base64.urlsafeDecode (String.ofList (Base64.addPadding raw)) else none

/-- The signed text of a login. -/
def Login.body (config : AuthConfig) (login : Login) : String :=
  b64urlEncode (String.ofList (Json.renderSeparated Json.escaped [] (.obj (login.payload config)))).toUTF8

/-- **`_issue_token`** -/
def Login.token (hmac : Hmac) (config : AuthConfig) (login : Login) : String :=
  signedText hmac config.secret (login.body config)

/-- `isinstance(expires, (int, float)) and expires > now`, of the expiry in a payload. -/
def unexpired (now : Int) : Option Json → Bool
  | some (.int n) => now < n * 1000000
  | some (.bool b) => now < if b then 1000000 else 0
  | some (.float literal) =>
    match Decimal.parse literal with
    | some (.infinity negative) => !negative
    | some (.nan ..) => true
    | some number => decide ((now : ℚ) < number.value * 1000000)
    | none => false
  | _ => false

/-- **`_decode_token`** -/
def decodeToken (hmac : Hmac) (config : AuthConfig) (now : Int) (token : String) :
    Except Raised (Option (List (String × Json))) :=
  match token.toList.splitOn '.' with
  | [body, signature] =>
    (compareDigest (hmac.digest config.secret (String.ofList body)) (String.ofList signature)).map fun same =>
      if same then
        match ((b64urlDecode body).bind String.fromUTF8?).bind Json.loads with
        | some (.obj fields) => if unexpired now (Json.get? fields "exp") then some fields else none
        | _ => none
      else none
  | _ => .ok none

/-- The texts of a list; a value that is no list has none. -/
def textsOf : Option Json → List String
  | some (.arr values) => values.filterMap fun value =>
      match value with
      | .str text => some text
      | _ => none
  | _ => []

/-- The scope in a payload. The `str` of a value that is no text is given, and is no role. -/
def scopeOf (str : Json → String) (fields : List (String × Json)) : Option PlatformScope :=
  match Json.get? fields "role" with
  | some (.str raw) =>
    (PlatformRole.parse raw).map fun role =>
      { principalId := match Json.get? fields "sub" with
          | some (.str text) => text
          | some value => str value
          | none => "unknown"
        role, tenantIds := textsOf (Json.get? fields "tenants") }
  | _ => none

/-- The scope of the configured token. -/
def apiScope : PlatformScope :=
  ⟨"api-token", .admin, []⟩

/-- **`resolve_token`** -/
def resolveToken (hmac : Hmac) (config : AuthConfig) (str : Json → String) (now : Int) (token : String) :
    Except Raised (Option PlatformScope) :=
  if token = "" then .ok none
  else
    let configured : Except Raised Bool :=
      match config.apiToken with
      | some apiToken => compareDigest token apiToken
      | none => .ok false
    configured.bind fun same =>
      if same then .ok (some apiScope)
      else (decodeToken hmac config now token).map fun payload => payload.bind (scopeOf str)

/-! ## Download tokens -/

/-- **A download** that was offered: the id of an export, which has no dot, and the expiry. -/
structure Download where
  exportId : String
  expiresAt : Utc
  noDot : '.' ∉ exportId.toList

/-- `int(expires_at.timestamp())` -/
def Download.seconds (download : Download) : Int :=
  download.expiresAt.micros.tdiv 1000000

/-- What is signed of a download. -/
def downloadMessage (exportId : String) (seconds : Int) : String :=
  exportId ++ "." ++ String.ofList (IntText.text seconds)

/-- **`sign_download`** -/
def signDownload (hmac : Hmac) (secret exportId : String) (seconds : Int) : String :=
  signedText hmac secret (downloadMessage exportId seconds)

/-- The token of a download. -/
def Download.token (hmac : Hmac) (secret : String) (download : Download) : String :=
  signDownload hmac secret download.exportId download.seconds

/-- The second of an expiry that is not past; `none` where it is no number or no instant, or is past. -/
def openUntil (now : Int) (raw : List Char) : Option Int :=
  match IntText.parse raw with
  | some seconds => if (Utc.of? (seconds * 1000000)).isSome && now < seconds * 1000000 then some seconds else none
  | none => none

/-- **`verify_download`** -/
def verifyDownload (hmac : Hmac) (secret : String) (now : Int) (token : String) : Except Raised (Option String) :=
  match token.toList.splitOn '.' with
  | [exportId, rawExpires, _] =>
    match openUntil now rawExpires with
    | some seconds =>
      (compareDigest (signDownload hmac secret (String.ofList exportId) seconds) token).map fun same =>
        if same then some (String.ofList exportId) else none
    | none => .ok none
  | _ => .ok none

/-! ## Issued tokens are read -/

variable {hmac : Hmac} {config : AuthConfig} {login : Login}

/-- A digest is in ASCII and has no dot. -/
theorem digest_chars (hmac : Hmac) (secret message : String) :
    isAscii (hmac.digest secret message) = true ∧ '.' ∉ (hmac.digest secret message).toList := by
  have hascii : "0123456789abcdef".toList.all (·.toNat < 128) = true := by decide
  refine ⟨List.all_eq_true.mpr fun c hc => List.all_eq_true.mp hascii c (hmac.hex secret message c hc), fun hdot => ?_⟩
  exact absurd (hmac.hex secret message '.' hdot) (by decide)

/-- The characters of a signed text. -/
theorem signedText_toList (hmac : Hmac) (secret message : String) :
    (signedText hmac secret message).toList = message.toList ++ '.' :: (hmac.digest secret message).toList := by
  simp [signedText]

/-- The body of a token is in the alphabet. -/
theorem body_chars {c : Char} (h : c ∈ (login.body config).toList) : c ∈ Base64.alphabet := by
  rw [Login.body, b64urlEncode, String.toList_ofList, Base64.urlsafeEncode, String.toList_ofList] at h
  exact Base64.dropPadding_mem h

theorem body_noDot (config : AuthConfig) (login : Login) : '.' ∉ (login.body config).toList := fun h =>
  absurd (body_chars h) (by decide)

/-- The payload of a login has no floating point numbers. -/
theorem exact_payload : Json.Exact (.obj (login.payload config)) := by
  refine .obj fun field hfield => ?_
  simp only [Login.payload, List.mem_cons, List.not_mem_nil, or_false] at hfield
  rcases hfield with rfl | rfl | rfl | rfl
  · exact .str _
  · exact .str _
  · refine .arr fun value hvalue => ?_
    obtain ⟨text, -, rfl⟩ := List.mem_map.mp hvalue
    exact .str text
  · exact .int _

/-- **The body of a token is read back as its payload.** -/
theorem loads_body (config : AuthConfig) (login : Login) : ((b64urlDecode (login.body config).toList).bind String.fromUTF8?).bind Json.loads
    = some (.obj (login.payload config)) := by
  have hascii : (login.body config).toList.all (·.toNat < 128) = true := by
    have halphabet : Base64.alphabet.all (·.toNat < 128) = true := by decide
    exact List.all_eq_true.mpr fun c hc => List.all_eq_true.mp halphabet c (body_chars hc)
  rw [b64urlDecode, if_pos hascii, Login.body, b64urlEncode, String.toList_ofList, Base64.urlsafeEncode,
    String.toList_ofList, Base64.addPadding_dropPadding, ← Base64.urlsafeEncode, Base64.urlsafeDecode_urlsafeEncode,
    Option.bind_some, Json.fromUTF8?_toUTF8, Option.bind_some]
  exact Json.loads_renderSeparated Json.string?_quoted (fun _ h => absurd h List.not_mem_nil) exact_payload

/-- The expiry of a payload. -/
theorem unexpired_payload (config : AuthConfig) (login : Login) (now : Int) :
    unexpired now (Json.get? (login.payload config) "exp") = decide (now < login.expires config * 1000000) := by
  have hexp : Json.get? (login.payload config) "exp" = some (.int (login.expires config)) := by
    simp [Json.get?, Login.payload]
  rw [hexp]
  rfl

/-- The scope of an account. -/
def Login.scope (login : Login) : PlatformScope :=
  ⟨login.principalId, login.role, login.tenantScope⟩

/-- **The scope of a payload** is that of its account. -/
theorem scopeOf_payload (str : Json → String) : scopeOf str (login.payload config) = some login.scope := by
  have hrole : Json.get? (login.payload config) "role" = some (.str login.role.value) := by
    simp [Json.get?, Login.payload]
  have hsub : Json.get? (login.payload config) "sub" = some (.str login.principalId) := by
    simp [Json.get?, Login.payload]
  have htenants : Json.get? (login.payload config) "tenants" = some (.arr (login.tenantScope.map .str)) := by
    simp [Json.get?, Login.payload]
  have hparse : PlatformRole.parse login.role.value = some login.role := by
    cases login.role <;> rfl
  have htexts : (login.tenantScope.map Json.str).filterMap (fun value =>
      match value with
      | .str text => some text
      | _ => none) = login.tenantScope := by
    rw [List.filterMap_map]
    exact List.filterMap_some
  rw [scopeOf, hrole, hsub, htenants]
  dsimp only
  rw [hparse, Option.map_some, textsOf, htexts, Login.scope]

/-! ## Bearer tokens are accepted where they were issued -/

/-- What is signed under a secret: the bodies of logins, and what is signed of downloads. -/
def signedTexts (config : AuthConfig) (logins : List Login) (downloads : List Download) : List String :=
  logins.map (Login.body config) ++ downloads.map fun download => downloadMessage download.exportId download.seconds

/-- **The signature of a token of two parts is in ASCII.** -/
def SignatureAscii (token : String) : Prop :=
  ∀ body signature, token.toList.splitOn '.' = [body, signature] → isAscii (String.ofList signature) = true

/-- The parts of the token of a login. -/
theorem splitOn_token (hmac : Hmac) (config : AuthConfig) (login : Login) : ((login.token hmac config).toList).splitOn '.'
    = [(login.body config).toList, (hmac.digest config.secret (login.body config)).toList] := by
  rw [splitOn_pair_iff, Login.token, signedText_toList]
  exact ⟨rfl, body_noDot config login, (digest_chars hmac _ _).2⟩

/-- A signature that is not in ASCII raises. -/
theorem decodeToken_raises {token : String} (h : ¬ SignatureAscii token) (now : Int) :
    decodeToken hmac config now token = .error .typeError := by
  simp only [SignatureAscii, not_forall] at h
  obtain ⟨body, signature, hparts, hascii⟩ := h
  rw [decodeToken, hparts]
  dsimp only
  rw [compareDigest, (digest_chars hmac _ _).1, Bool.true_and, if_neg hascii]
  rfl

/-- **The payload of a token** is that of the login that it was issued for. -/
theorem decodeToken_spec {logins : List Login} {downloads : List Download} {token : String}
    (hunforged : Unforged hmac config.secret (signedTexts config logins downloads) token)
    (hascii : SignatureAscii token) (now : Int) :
    ∃ payload, decodeToken hmac config now token = .ok payload
      ∧ ∀ fields, payload = some fields ↔ ∃ login ∈ logins, login.token hmac config = token
          ∧ now < login.expires config * 1000000 ∧ fields = login.payload config := by
  by_cases hparts : ∃ body signature, token.toList.splitOn '.' = [body, signature]
  · obtain ⟨body, signature, hparts⟩ := hparts
    obtain ⟨htoken, hbodyDot, -⟩ := splitOn_pair_iff.mp hparts
    have hissued : ∀ login : Login, login.token hmac config = token →
        login.body config = String.ofList body
          ∧ hmac.digest config.secret (String.ofList body) = String.ofList signature := by
      intro login hlogin
      have hsame := splitOn_token hmac config login
      rw [hlogin, hparts] at hsame
      obtain ⟨hbody, hrest⟩ := List.cons.inj hsame
      have hsignature := (List.cons.inj hrest).1
      have hbodyText : login.body config = String.ofList body := by rw [hbody, String.ofList_toList]
      refine ⟨hbodyText, ?_⟩
      rw [← hbodyText, hsignature, String.ofList_toList]
    have hcompare : compareDigest (hmac.digest config.secret (String.ofList body)) (String.ofList signature)
        = .ok (hmac.digest config.secret (String.ofList body) == String.ofList signature) := by
      rw [compareDigest, (digest_chars hmac _ _).1, hascii body signature hparts]
      rfl
    by_cases hsame : hmac.digest config.secret (String.ofList body) = String.ofList signature
    · -- the body was signed, and it is no message of a download, as it has no dot
      have hsigned : String.ofList body ∈ signedTexts config logins downloads := by
        refine hunforged _ (String.toList_inj.mp ?_)
        rw [signedText_toList, hsame, String.toList_ofList, String.toList_ofList]
        exact htoken
      rcases List.mem_append.mp hsigned with hlogin | hdownload
      · obtain ⟨login, hmem, hbody⟩ := List.mem_map.mp hlogin
        have htokenEq : login.token hmac config = token := by
          rw [← String.toList_inj, Login.token, signedText_toList, hbody, hsame, String.toList_ofList,
            String.toList_ofList]
          exact htoken.symm
        have hloads : ((b64urlDecode body).bind String.fromUTF8?).bind Json.loads
            = some (.obj (login.payload config)) := by
          have hread := loads_body config login
          rwa [hbody, String.toList_ofList] at hread
        refine ⟨if now < login.expires config * 1000000 then some (login.payload config) else none, ?_,
          fun fields => ?_⟩
        · rw [decodeToken, hparts]
          dsimp only
          rw [hcompare, hsame, beq_self_eq_true, hloads]
          simp only [Except.map, if_true, unexpired_payload, decide_eq_true_eq]
        · constructor
          · intro hsome
            split_ifs at hsome with hopen
            exact ⟨login, hmem, htokenEq, hopen, (Option.some.inj hsome).symm⟩
          · rintro ⟨other, -, hother, hopen, rfl⟩
            -- two logins with one token have one payload
            have hpayload : other.payload config = login.payload config := by
              have hread := loads_body config other
              rw [(hissued other hother).1, String.toList_ofList, hloads] at hread
              exact (Json.obj.inj (Option.some.inj hread)).symm
            have hexpires := unexpired_payload config other now
            rw [hpayload, unexpired_payload, decide_eq_decide] at hexpires
            rw [if_pos (hexpires.mpr hopen), hpayload]
      · obtain ⟨download, -, hmessage⟩ := List.mem_map.mp hdownload
        refine absurd ?_ hbodyDot
        rw [← String.toList_ofList (l := body), ← hmessage, downloadMessage]
        simp
    · refine ⟨none, ?_, fun fields => ?_⟩
      · rw [decodeToken, hparts]
        dsimp only
        rw [hcompare, beq_eq_false_iff_ne.mpr hsame]
        rfl
      · constructor
        · intro hsome
          cases hsome
        · rintro ⟨login, -, hlogin, -⟩
          exact absurd (hissued login hlogin).2 hsame
  · refine ⟨none, ?_, fun fields => ?_⟩
    · rw [decodeToken]
      split
      · next body signature heq => exact absurd ⟨body, signature, heq⟩ hparts
      · rfl
    · constructor
      · intro hsome
        cases hsome
      · rintro ⟨login, -, rfl, -⟩
        exact absurd ⟨_, _, splitOn_token _ _ _⟩ hparts

/-- The signature of the token of a login is in ASCII. -/
theorem signatureAscii_token : SignatureAscii (login.token hmac config) := by
  intro body signature hparts
  rw [splitOn_token] at hparts
  obtain ⟨-, hrest⟩ := List.cons.inj hparts
  rw [← (List.cons.inj hrest).1, String.ofList_toList]
  exact (digest_chars _ _ _).1

/-- A part of a text in ASCII is in ASCII. -/
theorem signatureAscii_of_isAscii {token : String} (h : isAscii token = true) : SignatureAscii token := by
  intro body signature hparts
  obtain ⟨htoken, -, -⟩ := splitOn_pair_iff.mp hparts
  rw [isAscii, htoken, List.all_append, List.all_cons, Bool.and_eq_true, Bool.and_eq_true] at h
  rw [isAscii, String.toList_ofList]
  exact h.2.2

/-- The token of a login is not empty. -/
theorem token_ne_empty : login.token hmac config ≠ "" := by
  intro h
  have htoken := signedText_toList hmac config.secret (login.body config)
  rw [← Login.token, h] at htoken
  exact absurd htoken.symm (List.append_ne_nil_of_right_ne_nil _ (List.cons_ne_nil _ _))

/-- **The identity of a token**: that of the configured token, and of any other that of the account that it was issued
for and that has not expired. -/
def IsIdentity (hmac : Hmac) (config : AuthConfig) (logins : List Login) (now : Int) (token : String)
    (scope : PlatformScope) : Prop :=
  (config.apiToken = some token ∧ token ≠ "" ∧ scope = apiScope)
    ∨ (config.apiToken ≠ some token ∧ ∃ login ∈ logins, login.token hmac config = token
        ∧ now < login.expires config * 1000000 ∧ scope = login.scope)

/-- **A token can be compared**: where a token is configured both are in ASCII, and else the signature is. -/
def BearerComparable (config : AuthConfig) (token : String) : Prop :=
  token = "" ∨ match config.apiToken with
    | some apiToken => isAscii token = true ∧ isAscii apiToken = true
    | none => SignatureAscii token

/-- The scope of a token is that of the login that it was issued for. -/
theorem decoded_scope {logins : List Login} {downloads : List Download} {token : String}
    (hunforged : Unforged hmac config.secret (signedTexts config logins downloads) token)
    (hascii : SignatureAscii token) (str : Json → String) (now : Int) :
    ∃ result, (decodeToken hmac config now token).map (fun payload => payload.bind (scopeOf str)) = .ok result
      ∧ ∀ scope, result = some scope ↔ ∃ login ∈ logins, login.token hmac config = token
          ∧ now < login.expires config * 1000000 ∧ scope = login.scope := by
  obtain ⟨payload, hpayload, hspec⟩ := decodeToken_spec hunforged hascii now
  refine ⟨payload.bind (scopeOf str), by rw [hpayload]; rfl, fun scope => ?_⟩
  rw [Option.bind_eq_some_iff]
  constructor
  · rintro ⟨fields, hfields, hscope⟩
    obtain ⟨login, hmem, htoken, hopen, rfl⟩ := (hspec fields).mp hfields
    rw [scopeOf_payload] at hscope
    exact ⟨login, hmem, htoken, hopen, (Option.some.inj hscope).symm⟩
  · rintro ⟨login, hmem, htoken, hopen, rfl⟩
    exact ⟨_, (hspec _).mpr ⟨login, hmem, htoken, hopen, rfl⟩, scopeOf_payload str⟩

/-- **A bearer token is accepted exactly where it was issued and has not expired**, exactly where it can be compared. -/
theorem bearer_iff {logins : List Login} {downloads : List Download} {token : String}
    (hunforged : Unforged hmac config.secret (signedTexts config logins downloads) token)
    (str : Json → String) (now : Int) :
    (∃ result, resolveToken hmac config str now token = .ok result
        ∧ ∀ scope, result = some scope ↔ IsIdentity hmac config logins now token scope)
      ↔ BearerComparable config token := by
  by_cases hempty : token = ""
  · refine iff_of_true ⟨none, if_pos hempty, fun scope => ?_⟩ (.inl hempty)
    constructor
    · intro hsome
      cases hsome
    · rintro (⟨-, hne, -⟩ | ⟨-, login, -, htoken, -⟩)
      · exact absurd hempty hne
      · exact absurd (htoken.trans hempty) token_ne_empty
  rw [BearerComparable, or_iff_right hempty, resolveToken, if_neg hempty]
  cases hconfigured : config.apiToken with
  | none =>
    have hidentity : ∀ scope, IsIdentity hmac config logins now token scope
        ↔ ∃ login ∈ logins, login.token hmac config = token
            ∧ now < login.expires config * 1000000 ∧ scope = login.scope := by
      intro scope
      simp [IsIdentity, hconfigured]
    simp only [hidentity]
    constructor
    · rintro ⟨result, hresult, -⟩
      by_contra hascii
      have hraised : (decodeToken hmac config now token).map (fun payload => payload.bind (scopeOf str)) = .ok result :=
        hresult
      rw [decodeToken_raises hascii] at hraised
      cases hraised
    · exact fun hascii => decoded_scope hunforged hascii str now
  | some apiToken =>
    by_cases hascii : isAscii token = true ∧ isAscii apiToken = true
    · refine iff_of_true ?_ hascii
      have hcompare : compareDigest token apiToken = .ok (token == apiToken) := by
        rw [compareDigest, hascii.1, hascii.2]
        rfl
      by_cases hsame : token = apiToken
      · refine ⟨some apiScope, ?_, fun scope => ?_⟩
        · dsimp only
          rw [hcompare, beq_iff_eq.mpr hsame]
          rfl
        · simp [IsIdentity, hconfigured, hsame ▸ hempty, hsame, eq_comm]
      · have hother : config.apiToken ≠ some token := by
          rw [hconfigured]
          exact fun heq => hsame (Option.some.inj heq).symm
        obtain ⟨result, hresult, hspec⟩ :=
          decoded_scope hunforged (signatureAscii_of_isAscii hascii.1) str now
        refine ⟨result, ?_, fun scope => (hspec scope).trans ?_⟩
        · dsimp only
          rw [hcompare, beq_eq_false_iff_ne.mpr hsame]
          exact hresult
        · rw [IsIdentity, or_iff_right (fun h => hother h.1), and_iff_right hother]
    · refine iff_of_false ?_ hascii
      rintro ⟨result, hresult, -⟩
      have hcompare : compareDigest token apiToken = .error .typeError := by
        rw [compareDigest, if_neg]
        rwa [Bool.and_eq_true]
      dsimp only at hresult
      rw [hcompare] at hresult
      cases hresult

/-! ## Download tokens are accepted where they were offered -/

/-- The seconds of an instant are short enough to be read back. -/
theorem parse_seconds {seconds : Int} (h : (LocalTime.dayOf? (seconds * 1000000)).isSome = true) :
    IntText.parse (IntText.text seconds) = some seconds := by
  rw [LocalTime.dayOf?, Calendar.Date.ofOrdinal?_isSome] at h
  have hshort : seconds.natAbs < 10 ^ 12 := by
    unfold LocalTime.dayLength Calendar.maxOrdinal at h
    omega
  have hlength : (Nat.repr seconds.natAbs).length ≤ 12 := (Nat.length_repr_le_iff (by decide)).mpr hshort
  exact IntText.parse_text (Nat.le_trans hlength (by decide))

/-- The seconds of an expiry are those of an instant. -/
theorem Download.seconds_inRange (download : Download) :
    (LocalTime.dayOf? (download.seconds * 1000000)).isSome = true := by
  have hrange := download.expiresAt.inRange
  rw [LocalTime.dayOf?, Calendar.Date.ofOrdinal?_isSome] at hrange ⊢
  unfold Download.seconds LocalTime.dayLength Calendar.maxOrdinal at *
  have hdiv := Int.mul_tdiv_add_tmod download.expiresAt.micros 1000000
  rcases Int.le_total 0 download.expiresAt.micros with hpos | hneg
  · have hmod := Int.tmod_nonneg 1000000 hpos
    have hlt := Int.tmod_lt_of_pos download.expiresAt.micros (by decide : (0 : Int) < 1000000)
    omega
  · have hmod := Int.tmod_nonneg 1000000 (Int.neg_nonneg_of_nonpos hneg)
    have hlt := Int.tmod_lt_of_pos (-download.expiresAt.micros) (by decide : (0 : Int) < 1000000)
    rw [Int.neg_tmod] at hmod hlt
    omega

/-- The text of a number has no dot. -/
theorem number_noDot (n : Int) : '.' ∉ IntText.text n := by
  intro hdot
  rcases IntText.text_chars hdot with heq | hdigit
  · exact absurd heq (by decide)
  · exact absurd hdigit (by decide)

/-- The text of a number is in ASCII. -/
theorem number_ascii {n : Int} {c : Char} (h : c ∈ IntText.text n) : decide (c.toNat < 128) = true := by
  rcases IntText.text_chars h with rfl | hdigit
  · rfl
  · have hall : ['0', '1', '2', '3', '4', '5', '6', '7', '8', '9'].all (fun d => decide (d.toNat < 128)) = true := by
      decide
    exact List.all_eq_true.mp hall c (Decimal.mem_digits_of_isDigit hdigit)

/-- **The parts of the token of a download.** -/
theorem splitOn_downloadToken (secret : String) (download : Download) :
    (download.token hmac secret).toList.splitOn '.'
      = [download.exportId.toList, IntText.text download.seconds,
          (hmac.digest secret (downloadMessage download.exportId download.seconds)).toList] := by
  rw [splitOn_triple_iff, Download.token, signDownload, signedText_toList]
  refine ⟨?_, download.noDot, number_noDot _, (digest_chars hmac _ _).2⟩
  simp [downloadMessage]

/-- The token of a download is in ASCII, where the id of its export is. -/
theorem isAscii_signDownload {secret exportId : String} {seconds : Int} (h : isAscii exportId = true) :
    isAscii (signDownload hmac secret exportId seconds) = true := by
  have hdigest := (digest_chars hmac secret (downloadMessage exportId seconds)).1
  rw [isAscii] at h hdigest ⊢
  rw [signDownload, signedText_toList, downloadMessage]
  simp only [String.toList_append, String.toList_ofList, List.all_append, List.all_cons, Bool.and_eq_true]
  exact ⟨⟨⟨h, by decide⟩, List.all_eq_true.mpr fun c hc => number_ascii hc⟩, by decide, hdigest⟩

/-- **The export of a token** is that of the download that it was offered for and that has not expired. -/
def IsDownload (hmac : Hmac) (secret : String) (downloads : List Download) (now : Int) (token exportId : String) :
    Prop :=
  ∃ download ∈ downloads, download.token hmac secret = token ∧ now < download.seconds * 1000000
    ∧ exportId = download.exportId

/-- **A token can be compared**: where it has three parts and its second is an expiry that is not past, it is in
ASCII. -/
def DownloadComparable (now : Int) (token : String) : Prop :=
  ∀ exportId raw digest, token.toList.splitOn '.' = [exportId, raw, digest] → (openUntil now raw).isSome = true →
    isAscii token = true

/-- The expiry that is read is that of an instant to come. -/
theorem openUntil_eq_some {now seconds : Int} {raw : List Char} :
    openUntil now raw = some seconds
      ↔ IntText.parse raw = some seconds ∧ (LocalTime.dayOf? (seconds * 1000000)).isSome = true
        ∧ now < seconds * 1000000 := by
  have hrange : (Utc.of? (seconds * 1000000)).isSome = (LocalTime.dayOf? (seconds * 1000000)).isSome := by
    unfold Utc.of?
    split_ifs with h
    · exact h.symm
    · exact ((Bool.not_eq_true _).mp h).symm
  rw [← hrange, openUntil]
  constructor
  · intro h
    split at h
    · next read hread =>
      split_ifs at h with hopen
      cases h
      rw [Bool.and_eq_true, decide_eq_true_eq] at hopen
      exact ⟨hread, hopen⟩
    · cases h
  · rintro ⟨hread, hvalid, hopen⟩
    rw [hread]
    dsimp only
    rw [if_pos]
    rw [hvalid, Bool.true_and, decide_eq_true_eq]
    exact hopen

/-- What is signed of a download says which it is. -/
theorem downloadMessage_inj {download : Download} {exportId : String} {seconds : Int} (hdot : '.' ∉ exportId.toList)
    (hrange : (LocalTime.dayOf? (seconds * 1000000)).isSome = true)
    (h : downloadMessage download.exportId download.seconds = downloadMessage exportId seconds) :
    download.exportId = exportId ∧ download.seconds = seconds := by
  have hparts : ∀ (id : String) (n : Int), '.' ∉ id.toList →
      (downloadMessage id n).toList.splitOn '.' = [id.toList, IntText.text n] := by
    intro id n hid
    rw [splitOn_pair_iff]
    refine ⟨?_, hid, number_noDot n⟩
    simp [downloadMessage]
  have hsame := hparts download.exportId download.seconds download.noDot
  rw [h, hparts exportId seconds hdot] at hsame
  obtain ⟨hid, hrest⟩ := List.cons.inj hsame
  have hnumber := congrArg IntText.parse (List.cons.inj hrest).1
  rw [parse_seconds hrange, parse_seconds download.seconds_inRange] at hnumber
  exact ⟨(String.toList_inj.mp hid).symm, (Option.some.inj hnumber).symm⟩

/-- **A download token gives its export exactly where it was offered and has not expired**, exactly where it can be
compared. -/
theorem download_iff {secret : String} {logins : List Login} {downloads : List Download} {token : String}
    (hunforged : Unforged hmac secret (signedTexts config logins downloads) token) (now : Int) :
    (∃ result, verifyDownload hmac secret now token = .ok result
        ∧ ∀ exportId, result = some exportId ↔ IsDownload hmac secret downloads now token exportId)
      ↔ DownloadComparable now token := by
  -- a token that was offered and has not expired is read as it was offered
  have hissued : ∀ download : Download, download.token hmac secret = token → now < download.seconds * 1000000 →
      token.toList.splitOn '.' = [download.exportId.toList, IntText.text download.seconds,
          (hmac.digest secret (downloadMessage download.exportId download.seconds)).toList]
        ∧ openUntil now (IntText.text download.seconds) = some download.seconds := by
    rintro download rfl hopen
    exact ⟨splitOn_downloadToken secret download,
      openUntil_eq_some.mpr ⟨parse_seconds download.seconds_inRange, download.seconds_inRange, hopen⟩⟩
  have hnone : (∀ exportId raw digest, token.toList.splitOn '.' = [exportId, raw, digest] → openUntil now raw = none) →
      ∀ exportId, none = some exportId ↔ IsDownload hmac secret downloads now token exportId := by
    intro hclosed exportId
    constructor
    · intro hsome
      cases hsome
    · rintro ⟨download, -, htoken, hopen, -⟩
      obtain ⟨hparts, hread⟩ := hissued download htoken hopen
      rw [hclosed _ _ _ hparts] at hread
      cases hread
  by_cases hthree : ∃ exportId raw digest, token.toList.splitOn '.' = [exportId, raw, digest]
  · obtain ⟨exportId, raw, digest, hparts⟩ := hthree
    cases hread : openUntil now raw with
    | none =>
      have hclosed : ∀ exportId raw digest, token.toList.splitOn '.' = [exportId, raw, digest] →
          openUntil now raw = none := by
        intro _ _ _ hother
        rw [hparts] at hother
        cases hother
        exact hread
      refine iff_of_true ⟨none, ?_, hnone hclosed⟩ fun _ _ _ hother hopen => ?_
      · rw [verifyDownload, hparts]
        dsimp only
        rw [hread]
      · rw [hclosed _ _ _ hother] at hopen
        cases hopen
    | some seconds =>
      have hcomparable : DownloadComparable now token ↔ isAscii token = true := by
        constructor
        · exact fun h => h _ _ _ hparts (by rw [hread]; rfl)
        · exact fun h _ _ _ _ _ => h
      rw [hcomparable]
      have hverify : verifyDownload hmac secret now token
          = (compareDigest (signDownload hmac secret (String.ofList exportId) seconds) token).map fun same =>
              if same then some (String.ofList exportId) else none := by
        rw [verifyDownload, hparts]
        dsimp only
        rw [hread]
      obtain ⟨htoken, hid, -, -⟩ := splitOn_triple_iff.mp hparts
      obtain ⟨-, hrange, hopen⟩ := openUntil_eq_some.mp hread
      by_cases hascii : isAscii token = true
      · refine iff_of_true ?_ hascii
        have hexpected : isAscii (signDownload hmac secret (String.ofList exportId) seconds) = true := by
          rw [isAscii, htoken, List.all_append, Bool.and_eq_true] at hascii
          exact isAscii_signDownload (by rw [isAscii, String.toList_ofList]; exact hascii.1)
        have hcompare : compareDigest (signDownload hmac secret (String.ofList exportId) seconds) token
            = .ok (signDownload hmac secret (String.ofList exportId) seconds == token) := by
          rw [compareDigest, hexpected, hascii]
          rfl
        rw [hverify, hcompare]
        refine ⟨_, rfl, fun id => ?_⟩
        constructor
        · intro hsome
          dsimp only at hsome
          split_ifs at hsome with hsame
          cases hsome
          have hsame := beq_iff_eq.mp hsame
          -- the message was signed, and it is no body of a login, as it has a dot
          rcases List.mem_append.mp (hunforged _ hsame.symm) with hlogin | hdownload
          · obtain ⟨login, -, hbody⟩ := List.mem_map.mp hlogin
            refine absurd ?_ (body_noDot config login)
            rw [hbody, downloadMessage]
            simp
          · obtain ⟨download, hmem, hmessage⟩ := List.mem_map.mp hdownload
            obtain ⟨hsameId, hsameSeconds⟩ :=
              downloadMessage_inj (by rwa [String.toList_ofList]) hrange hmessage
            refine ⟨download, hmem, ?_, hsameSeconds ▸ hopen, hsameId.symm⟩
            rw [Download.token, hsameId, hsameSeconds, hsame]
        · rintro ⟨download, -, hdownload, hfuture, rfl⟩
          have hsplit := (hissued download hdownload hfuture).1
          rw [hparts] at hsplit
          obtain ⟨hsameId, hrest⟩ := List.cons.inj hsplit
          have hsameRaw := (List.cons.inj hrest).1
          have hsameSeconds : seconds = download.seconds := by
            have hother := (hissued download hdownload hfuture).2
            rw [← hsameRaw, hread] at hother
            exact Option.some.inj hother
          have hexport : String.ofList exportId = download.exportId := by rw [hsameId, String.ofList_toList]
          rw [hexport, hsameSeconds, ← Download.token, hdownload, beq_self_eq_true]
          exact if_pos rfl
      · refine iff_of_false ?_ hascii
        rintro ⟨result, hresult, -⟩
        rw [hverify, compareDigest, (Bool.not_eq_true _).mp hascii, Bool.and_false] at hresult
        cases hresult
  · have hother : ∀ exportId raw digest, token.toList.splitOn '.' ≠ [exportId, raw, digest] :=
      fun exportId raw digest heq => hthree ⟨exportId, raw, digest, heq⟩
    refine iff_of_true ⟨none, ?_, hnone fun _ _ _ heq => absurd heq (hother _ _ _)⟩ fun _ _ _ heq =>
      absurd heq (hother _ _ _)
    rw [verifyDownload]
    split
    · next exportId raw digest heq => exact absurd heq (hother _ _ _)
    · rfl

/-! ## Both tokens -/

/-- **Tokens are verified totally exactly where they can be compared**: each is accepted where it was issued and has not
expired, nothing else is, and nothing is raised. -/
theorem tokensVerified_iff {exportSecret : String} {logins : List Login} {downloads : List Download}
    {bearer download : String} (hbearer : Unforged hmac config.secret (signedTexts config logins downloads) bearer)
    (hdownload : Unforged hmac exportSecret (signedTexts config logins downloads) download)
    (str : Json → String) (now : Int) :
    ((∃ result, resolveToken hmac config str now bearer = .ok result
        ∧ ∀ scope, result = some scope ↔ IsIdentity hmac config logins now bearer scope)
      ∧ ∃ result, verifyDownload hmac exportSecret now download = .ok result
        ∧ ∀ exportId, result = some exportId ↔ IsDownload hmac exportSecret downloads now download exportId)
      ↔ BearerComparable config bearer ∧ DownloadComparable now download :=
  and_congr (bearer_iff hbearer str now) (download_iff hdownload now)

/-- What was signed is not forged. -/
theorem unforged_of_mem {secret message : String} {signed : List String} (h : message ∈ signed) :
    Unforged hmac secret signed (signedText hmac secret message) := by
  intro other hother
  have hdigest := (digest_chars hmac secret message).2
  have hotherDigest := (digest_chars hmac secret other).2
  rw [← String.toList_inj, signedText_toList, signedText_toList] at hother
  -- the last dot is before the digest
  rcases List.append_eq_append_iff.mp hother with ⟨between, hmessage, hrest⟩ | ⟨between, hmessage, hrest⟩
  · cases between with
    | nil => rwa [← String.toList_inj.mp (hmessage.trans (List.append_nil _))] at h
    | cons c between =>
      obtain ⟨-, hrest⟩ := List.cons.inj hrest
      exact absurd (hrest ▸ List.mem_append_right _ List.mem_cons_self) hdigest
  · cases between with
    | nil => rwa [String.toList_inj.mp (hmessage.trans (List.append_nil _))] at h
    | cons c between =>
      obtain ⟨-, hrest⟩ := List.cons.inj hrest
      exact absurd (hrest ▸ List.mem_append_right _ List.mem_cons_self) hotherDigest

/-- The digests of a login and a download under one secret. -/
def knownDigests : Hmac where
  digest secret message :=
    if secret = "secret" ∧
        message = "eyJzdWIiOiJwMSIsInJvbGUiOiJ2aWV3ZXIiLCJ0ZW5hbnRzIjpbInQxIl0sImV4cCI6Mjg4MDB9" then
      "763be32573728a0a2b318ff48c8b012d21710202ad44121405e0bf6cc21fb49d"
    else if secret = "secret" ∧ message = "e1.3600" then
      "7c7ed6c6f6ed5a5b4f8009753b824aee2a5e3e3590208ba84e8195fa103b47e1"
    else ""
  hex secret message := by
    have hlogin : "763be32573728a0a2b318ff48c8b012d21710202ad44121405e0bf6cc21fb49d".toList.all
        (fun c => "0123456789abcdef".toList.contains c) = true := by decide
    have hdownload : "7c7ed6c6f6ed5a5b4f8009753b824aee2a5e3e3590208ba84e8195fa103b47e1".toList.all
        (fun c => "0123456789abcdef".toList.contains c) = true := by decide
    intro c hc
    split_ifs at hc
    · exact List.contains_iff_mem.mp (List.all_eq_true.mp hlogin c hc)
    · exact List.contains_iff_mem.mp (List.all_eq_true.mp hdownload c hc)
    · exact absurd hc List.not_mem_nil

/-- A token of each kind is accepted before it expires. -/
theorem tokensVerified_issued :
    ∃ (login : Login) (download : Download),
      resolveToken knownDigests ⟨"secret", none, 28800⟩ (fun _ => "") 1
          (login.token knownDigests ⟨"secret", none, 28800⟩) = .ok (some ⟨"p1", .viewer, ["t1"]⟩)
        ∧ verifyDownload knownDigests "secret" 1 (download.token knownDigests "secret") = .ok (some "e1") := by
  let login : Login := ⟨"p1", .viewer, ["t1"], 0⟩
  let download : Download := ⟨"e1", ⟨3600000000, by decide⟩, by decide⟩
  refine ⟨login, download, ?_⟩
  have hbearer : Unforged knownDigests "secret" (signedTexts ⟨"secret", none, 28800⟩ [login] [download])
      (login.token knownDigests ⟨"secret", none, 28800⟩) :=
    unforged_of_mem (List.mem_append_left _ (List.mem_map.mpr ⟨login, List.mem_singleton.mpr rfl, rfl⟩))
  have hdownload : Unforged knownDigests "secret" (signedTexts ⟨"secret", none, 28800⟩ [login] [download])
      (download.token knownDigests "secret") :=
    unforged_of_mem (List.mem_append_right _ (List.mem_map.mpr ⟨download, List.mem_singleton.mpr rfl, rfl⟩))
  have hcomparable : BearerComparable ⟨"secret", none, 28800⟩ (login.token knownDigests ⟨"secret", none, 28800⟩)
      ∧ DownloadComparable 1 (download.token knownDigests "secret") :=
    ⟨.inr signatureAscii_token, fun _ _ _ _ _ => isAscii_signDownload (by decide)⟩
  obtain ⟨⟨scope, hscope, hidentity⟩, exportId, hexport, hid⟩ :=
    (tokensVerified_iff hbearer hdownload (fun _ => "") 1).mpr hcomparable
  have hmine : IsIdentity knownDigests ⟨"secret", none, 28800⟩ [login] 1
      (login.token knownDigests ⟨"secret", none, 28800⟩) login.scope :=
    .inr ⟨(Option.some_ne_none _).symm, login, List.mem_singleton.mpr rfl, rfl, by decide, rfl⟩
  have hoffered : IsDownload knownDigests "secret" [download] 1 (download.token knownDigests "secret") "e1" :=
    ⟨download, List.mem_singleton.mpr rfl, rfl, by decide, rfl⟩
  exact ⟨hscope.trans (congrArg _ ((hidentity _).mpr hmine)), hexport.trans (congrArg _ ((hid _).mpr hoffered))⟩

/-- A token that is not in ASCII raises, though nobody forged it. -/
theorem nonAscii_raises :
    Unforged knownDigests "secret" [] "é" ∧ Unforged knownDigests "secret" [] "é.1.x"
      ∧ resolveToken knownDigests ⟨"secret", some "front", 28800⟩ (fun _ => "") 0 "é" = .error .typeError
      ∧ verifyDownload knownDigests "secret" 0 "é.1.x" = .error .typeError := by
  refine ⟨fun message h => ?_, fun message h => ?_, by decide, by decide⟩
  · have hdot : '.' ∈ "é".toList := by
      rw [h, signedText_toList]
      exact List.mem_append_right _ List.mem_cons_self
    exact absurd hdot (by decide)
  · rw [← String.toList_inj, signedText_toList] at h
    have hlast := congrArg List.getLast? h
    rw [List.getLast?_append_cons] at hlast
    cases hdigest : (knownDigests.digest "secret" message).toList.reverse with
    | nil =>
      rw [List.reverse_eq_nil_iff.mp hdigest] at hlast
      exact absurd hlast (by decide)
    | cons c cs =>
      have hchars := List.reverse_eq_cons_iff.mp hdigest
      rw [hchars, ← List.cons_append, List.getLast?_append_cons] at hlast
      have hhex := knownDigests.hex "secret" message c (by rw [hchars]; simp)
      have hc : some 'x' = some c := hlast
      cases hc
      exact absurd hhex (by decide)

end Statistics
