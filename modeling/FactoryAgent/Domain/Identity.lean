/-!
# Identity values

The identity values of `domain/identity.py` and the credential pair of `ports/contracts.py`: the role
tier that the token endpoint returns, and the tenant and user a caller was authenticated as.
-/

/-- The four-role tier. -/
inductive Role where
  | employee
  | groupLeader
  | manager
  | owner
  deriving DecidableEq, Repr

namespace Role

/-- The customer's code of a role. -/
def mesCode : Role → String
  | employee => "00"
  | groupLeader => "01"
  | manager => "02"
  | owner => "99"

/-- A text without the blanks around it. -/
def stripped (text : String) : String :=
  String.ofList ((text.toList.dropWhile Char.isWhitespace).reverse.dropWhile
    Char.isWhitespace).reverse

/-- `Role.from_mes_code`: an unknown code is rejected. -/
def fromMesCode (code : String) : Option Role :=
  if stripped code = "00" then some employee
  else if stripped code = "01" then some groupLeader
  else if stripped code = "02" then some manager
  else if stripped code = "99" then some owner
  else none

/-- **The code of a role is read back.** -/
theorem fromMesCode_mesCode (role : Role) : fromMesCode role.mesCode = some role := by
  cases role <;> decide

end Role

/-- The tenant and the user a caller was authenticated as. -/
structure TrustedCredential where
  tenantId : String
  userId : String
  deriving DecidableEq, Repr
