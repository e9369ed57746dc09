import Rulebook.Text.Character
import Rulebook.Text.Lowercase
import Rulebook.Text.Pattern
/-!
# Event types

Events have a type, and a trigger names the types it reacts to. Case and blanks at the ends do not
matter. In the trigger's name `*` stands for any run of characters of one line, possibly an empty
one; alone it stands for every type.
-/

namespace Rulebook.EventType

/-- The form in which event types are compared. -/
def normalize (eventType : String) : String := Text.lower (Text.trim eventType)

/-- The pattern of a name with stars: all characters but these are escaped. -/
def pattern (trigger : String) : List Char := Pattern.openStars (Pattern.escape trigger.toList)

/-- Whether a trigger reacts to events of a type. -/
def isMatch (trigger event : String) : Bool :=
  let trigger := normalize trigger
  let event := normalize event
  !trigger.isEmpty && !event.isEmpty &&
    (trigger == "*" || trigger == event ||
      trigger.toList.contains '*' && Pattern.accepts (pattern trigger) event.toList)

end Rulebook.EventType
