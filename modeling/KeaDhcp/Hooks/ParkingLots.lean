/-!
# Parking lots

`src/lib/hooks/parking_lots.h`. Objects and callbacks are of arbitrary types. A callback is not run
here: `unpark` returns the one to run.
-/

namespace Hooks

structure ParkingInfo (α κ : Type) where
  parkedObject : α
  /-- An object that has been referenced but not parked has no callback yet. -/
  unparkCallback : Option κ
  refcount : Int

/-- `parking_`. -/
abbrev ParkingLot (α κ : Type) := List (ParkingInfo α κ)

namespace ParkingLot

variable {α κ : Type} [DecidableEq α] (lot : ParkingLot α κ) (object : α)

def find : Option (ParkingInfo α κ) :=
  List.find? (·.parkedObject = object) lot

/-- The entry that `find` returns, changed in place. -/
def updateEntry (f : ParkingInfo α κ → ParkingInfo α κ) (object : α) :
    ParkingLot α κ → ParkingLot α κ
  | [] => []
  | info :: lot => if info.parkedObject = object then f info :: lot else info :: updateEntry f object lot

/-- `parking_.erase(it)`. -/
def erase : ParkingLot α κ :=
  List.eraseP (·.parkedObject = object) lot

/-- `park`; `none` stands for the exception. -/
def park (callback : κ) : Option (ParkingLot α κ) :=
  match lot.find object with
  | none => none
  | some info =>
    if info.refcount ≤ 0 then none
    else some (lot.updateEntry (fun info => { info with unparkCallback := some callback }) object)

def reference : ParkingLot α κ :=
  match lot.find object with
  | none => lot ++ [{ parkedObject := object, unparkCallback := none, refcount := 1 }]
  | some _ => lot.updateEntry (fun info => { info with refcount := info.refcount + 1 }) object

/-- What `unpark` does, and the callback that it runs: `some none` is an empty function. -/
structure Unparked (α κ : Type) where
  lot : ParkingLot α κ
  found : Bool
  callback : Option (Option κ)

def unpark (force : Bool) : Unparked α κ :=
  match lot.find object with
  | none => { lot := lot, found := false, callback := none }
  | some info =>
    let refcount := if force then 0 else info.refcount - 1
    if refcount ≤ 0 then
      { lot := lot.erase object, found := true, callback := some info.unparkCallback }
    else
      { lot := lot.updateEntry (fun info => { info with refcount := refcount }) object
        found := true, callback := none }

def drop : ParkingLot α κ × Bool :=
  match lot.find object with
  | none => (lot, false)
  | some _ => (lot.erase object, true)

end ParkingLot

end Hooks
