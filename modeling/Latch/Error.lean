import Latch.Key
import Latch.Lock
import Latch.Text.Word

/-!
# Errors

What can go wrong when locks and properties are managed:

* `Store.Fault` — why a single statement failed;
* `Failed` — what was being done at that moment;
* `Error` — one of each, or the refusal of everything while the switch is off.

The wording is in `Failed.text` and `Error.message` alone.
-/

namespace Latch

/-- Why a statement failed. -/
inductive Store.Fault where
  /-- The store has been closed. -/
  | closed
  /-- A row with the same unique columns is there. -/
  | duplicate
  /-- A table of the statement does not exist. -/
  | missingTable
  /-- A guard of the store forbids the write. -/
  | guarded
  /-- A recorded number does not fit where it is read into. -/
  | outOfRange
deriving DecidableEq, Repr

/-- How a fault is classed for callers. -/
inductive Cause where
  | storeClosed
  | uniqueViolation
  | database
deriving DecidableEq, Repr

def Store.Fault.cause : Store.Fault → Cause
  | .closed => .storeClosed
  | .duplicate => .uniqueViolation
  | .missingTable | .guarded | .outOfRange => .database

/-- What could not be done. -/
inductive Failed where
  | readLock (key : Key)
  | insertLock (key : Key) (lock : Lock)
  | updateLock (key : Key)
  | deleteLock (key : Key)
  | deleteExpiredLock (key : Key)
  | readProperties (key : Key)
  | readProperty (key : Key) (name : String)
  | addProperty (key : Key) (name : String)
  | updateProperty (key : Key) (name : String)
  | deleteProperty (key : Key) (name : String)
  | deleteProperties (key : Key)
  /-- Described by the caller in words of its own. -/
  | described (text : String)
deriving DecidableEq, Repr

inductive Error where
  /-- The switch is off. -/
  | disabled
  /-- The record store failed. -/
  | record (failed : Failed) (cause : Cause)
deriving DecidableEq, Repr

namespace Failed

def orNull (text : Option String) : String := text.getD "null"

def millisText (m : Millis) : String := Decimal.intText m.toInt

def text : Failed → String
  | readLock key =>
    "Error occurred while retrieving feature lock status from DB for feature id: " ++ key.feature
      ++ ", user Id: " ++ key.user ++ " and tenant Id: " ++ TenantId.text key.tenant ++ "."
  | insertLock key lock =>
    "Error occurred while adding the feature: " ++ key.feature ++ ", for user: " ++ key.user
      ++ ", for tenant id: " ++ TenantId.text key.tenant
      ++ ", having the parameters, feature lock status: " ++ boolText lock.locked
      ++ ", feature unlock time: " ++ millisText lock.unlockTime
      ++ ", feature lock reason code: " ++ orNull lock.reasonCode
      ++ ", feature lock reason: " ++ orNull lock.reason ++ "."
  | updateLock key =>
    "Error occurred while updating the feature: " ++ key.feature ++ " for user Id: " ++ key.user
      ++ " and tenant Id: " ++ TenantId.text key.tenant ++ "."
  | deleteLock key =>
    "Error occurred while deleting feature from DB for feature Id: " ++ key.feature
      ++ ", user Id: " ++ key.user ++ " and tenant Id: " ++ TenantId.text key.tenant ++ "."
  | deleteExpiredLock key =>
    "Error occurred while deleting expired feature lock from DB for feature Id: " ++ key.feature
      ++ ", user Id: " ++ key.user ++ " and tenant Id: " ++ TenantId.text key.tenant ++ "."
  | readProperties key =>
    "Error occurred while retrieving feature lock properties from DB for user Id: " ++ key.user
      ++ ", tenant Id: " ++ TenantId.text key.tenant ++ " and feature id: " ++ key.feature ++ "."
  | readProperty key name =>
    "Error occurred while retrieving the feature lock property: " ++ name ++ " for feature Id: "
      ++ key.feature ++ ", user Id: " ++ key.user ++ " and tenant Id: "
      ++ TenantId.text key.tenant ++ "."
  | addProperty key name =>
    "Error occurred while adding the property: " ++ name ++ " for feature: " ++ key.feature
      ++ " in user: " ++ key.user ++ ", tenant id: " ++ TenantId.text key.tenant
  | updateProperty key name =>
    "Error occurred while updating the feature lock property: " ++ name ++ " for feature Id: "
      ++ key.feature ++ ", user Id: " ++ key.user ++ " and tenantId: "
      ++ TenantId.text key.tenant ++ "."
  | deleteProperty key name =>
    "Error occurred while deleting feature lock property from DB for feature Id: " ++ key.feature
      ++ ", property: " ++ name ++ ", user Id: " ++ key.user ++ " and tenant Id: "
      ++ TenantId.text key.tenant ++ "."
  | deleteProperties key =>
    "Error occurred while deleting feature lock properties from DB for feature Id: " ++ key.feature
      ++ ", user Id: " ++ key.user ++ " and tenant Id: " ++ TenantId.text key.tenant ++ "."
  | described text => text

end Failed

namespace Error

def message : Error → String
  | disabled => "Per-user feature locking is not enabled."
  | record failed _ => failed.text

def code : Error → String
  | disabled => "E600"
  | record .. => "E400"

/-- How to mend the error, where there is a way. -/
def suggestion? : Error → Option String
  | disabled => some "featurelock config set feature_locking.per_user_enabled true"
  | record .. => none

def isDisabled : Error → Bool
  | disabled => true
  | record .. => false

def cause? : Error → Option Cause
  | disabled => none
  | record _ cause => some cause

end Error

end Latch
