/-!
# Events

The event a caller submits.  A `system_clock` time point is its number of
nanoseconds since the epoch.
-/

namespace Fre

/-- `Tag`.  Its value is a view, which may be without data and is empty
then. -/
structure Tag where
  key : String
  value : String
  valueIsNull : Bool := false
  empty_of_null : valueIsNull = true → value = "" := by simp
  deriving DecidableEq, Repr

/-- `Event`. -/
structure Event where
  id : UInt64 := 0
  tenantId : String
  entityId : String
  eventType : String := ""
  timestamp : Int64 := 0
  payload : List UInt8 := []
  tags : List Tag := []
  deriving DecidableEq, Repr

namespace Event

/-- `Event::is_valid`. -/
def isValid (event : Event) : Bool :=
  !event.tenantId.isEmpty && !event.entityId.isEmpty

/-- `Event::tag`: the value of the first tag with the key, empty if there is
none. -/
def tag (event : Event) (key : String) : String :=
  ((event.tags.find? fun candidate => candidate.key == key).map
    Tag.value).getD ""

end Event
end Fre
