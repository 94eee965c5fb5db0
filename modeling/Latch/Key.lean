import Latch.Text.Decimal

/-!
# Keys

Everything is kept per feature of one user in one tenant. Two keys are the same only if all three
parts are: no case folding, trimming or normalisation takes place.
-/

namespace Latch

abbrev TenantId := Int32

structure Key where
  user : String
  tenant : TenantId
  feature : String
deriving DecidableEq, Repr

/-- Text of a tenant's number. -/
def TenantId.text (tenant : TenantId) : String := Decimal.intText tenant.toInt

namespace Key

/-- The form in which people see a key: `user@tenant/feature`. -/
def text (key : Key) : String :=
  key.user ++ "@" ++ TenantId.text key.tenant ++ "/" ++ key.feature

end Key

end Latch
