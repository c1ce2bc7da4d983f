/-!
# Reserved keys

The keys of a layer that carry deploy directives. They never name a branch of the tree.
-/

namespace SignalSchema.Deploy.Key

def constants : String := "_constants"
def defaultValue : String := "_defaultValue"
def dispatcher : String := "_dispatcher"
def francaIDL : String := "_francaIDL"
def parentAttribute : String := "_parentAttribute"
def custom : String := "_custom"
def methods : String := "methods"

/-- The keys with a meaning of their own. -/
def reserved : List String :=
  [methods, francaIDL, constants, parentAttribute, dispatcher, custom, defaultValue]

/-- Whether a key carries a directive. -/
def isReserved (key : String) : Bool :=
  reserved.contains key

end SignalSchema.Deploy.Key
