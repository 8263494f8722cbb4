import ServiceDocs.Json.Basic

/-!
# Terminal types and containers

Terminal types stand for a single value and are never expanded into fields. Each has a fixed
sample value, so that documents come out the same on every run. Containers are the collection
types whose first argument is the type of their elements.
-/

namespace ServiceDocs.Terminal

/-- The types of numbers. -/
def numbers : List String :=
  ["byte", "short", "int", "long", "float", "double", "Byte", "Short", "Integer", "Long",
   "Float", "Double", "Number", "BigDecimal", "BigInteger", "AtomicInteger", "AtomicLong"]

/-- The types of truth values. -/
def truthValues : List String :=
  ["boolean", "Boolean"]

/-- The types of text. -/
def texts : List String :=
  ["String", "CharSequence", "char", "Character", "UUID"]

/-- The types of a date with a time of day, written with a blank between them. -/
def timestamps : List String :=
  ["Date", "Timestamp"]

/-- The types of a date with a time of day. -/
def dateTimes : List String :=
  ["LocalDateTime", "Instant", "ZonedDateTime", "OffsetDateTime"]

/-- The types of values with keys that are not known beforehand. -/
def maps : List String :=
  ["Object", "Map", "HashMap", "LinkedHashMap", "TreeMap", "SortedMap", "ConcurrentHashMap"]

/-- The names of all terminal types. -/
def names : List String :=
  numbers ++ truthValues ++ texts ++ timestamps ++ ["LocalDate", "LocalTime"] ++ dateTimes ++ maps

/-- The names of the containers. -/
def containers : List String :=
  ["Iterable", "Collection", "List", "ArrayList", "LinkedList", "Vector", "Stack",
   "CopyOnWriteArrayList", "Set", "HashSet", "LinkedHashSet", "TreeSet", "SortedSet", "Queue",
   "Deque", "ArrayDeque"]

/-- The type is terminal. -/
def isTerminal (name : String) : Bool :=
  names.contains name

/-- The type is a container. -/
def isContainer (name : String) : Bool :=
  containers.contains name

/-- The sample value of a terminal type; there is none for other types, which get `null`. -/
def sample (name : String) : Json :=
  if numbers.contains name then .num 0
  else if truthValues.contains name then .bool false
  else if texts.contains name then .str ""
  else if timestamps.contains name then .str "1970-01-01 00:00:00"
  else if name = "LocalDate" then .str "1970-01-01"
  else if name = "LocalTime" then .str "00:00:00"
  else if dateTimes.contains name then .str "1970-01-01T00:00:00"
  else if maps.contains name then .obj []
  else .null

end ServiceDocs.Terminal
