import SpecAtlas.Json.Reader
import SpecAtlas.Text.Decimal
import SpecAtlas.Text.Quotes

/-!
Where an index is kept. The path of an index names its file. A path that starts with `file:` is an
address: its escapes stand for bytes, and options after a question mark tell how the index is used.
An index without a file is kept in memory and lost when it is closed.
-/

namespace SpecAtlas

inductive Access where
  | create
  | change
  | read
deriving DecidableEq, Repr

structure Location where
  file : Option String
  shared : Option (String × String) := none
  access : Access := .create
  frozen : Bool := false
  logs : Bool := true
  /-- A journal that is there counts as one that an earlier user left. -/
  heeds : Bool := true
  /-- The digest of the log is kept from others. -/
  alone : Bool := false
  /-- The digest of the log may only be read. -/
  watches : Bool := false
  /-- A file that must be there, since a new file takes its permissions from it. -/
  pattern : Option String := none
deriving DecidableEq, Repr

namespace Location

def escape? (a b : Char) : Option UInt8 := do
  return .ofNat ((← Json.hexValue? a) * 16 + (← Json.hexValue? b))

def decode : List Char → List UInt8
  | [] => []
  | '%' :: a :: b :: rest =>
    match escape? a b with
    | some byte => if byte == 0 then [] else byte :: decode rest
    | none => 37 :: decode (a :: b :: rest)
  | c :: rest => (String.singleton c).toByteArray.data.toList ++ decode rest

def decoded (part : List Char) : String :=
  let bytes := decode part
  (String.fromUTF8? ⟨bytes.toArray⟩).getD (String.ofList (bytes.map fun b => Char.ofNat b.toNat))

def partsAt (sep : Char) : List Char → List (List Char)
  | [] => [[]]
  | c :: rest =>
    if c == sep then [] :: partsAt sep rest
    else
      match partsAt sep rest with
      | [] => [[c]]
      | part :: more => (c :: part) :: more

def afterFirst (sep : Char) (s : List Char) : List Char := (s.dropWhile (· != sep)).drop 1

def option? (part : List Char) : Option (String × String) :=
  let name := decoded (part.takeWhile (· != '='))
  if name.isEmpty then none else some (name, decoded (afterFirst '=' part))

structure Mode where
  read : Bool := false
  change : Bool := true
  create : Bool := true
  inMemory : Bool := false
  shared : Bool := false
deriving DecidableEq, Repr

namespace Mode

def ofName? : String → Option Mode
  | "ro" => some { read := true, change := false, create := false }
  | "rw" => some { create := false }
  | "rwc" => some {}
  | "memory" => some { change := false, create := false, inMemory := true }
  | _ => none

def rank (m : Mode) : Nat :=
  (if m.read then 1 else 0) + (if m.change then 2 else 0) + (if m.create then 4 else 0)

/-- Whether another mode may follow: it allows no more, and any may follow that of memory. -/
def admits (m next : Mode) : Bool := m.inMemory || next.rank ≤ m.rank

def access (m : Mode) : Access :=
  if m.read then .read else if m.create || m.inMemory then .create else .change

end Mode

def Mode.apply (m : Mode) : String × String → Option Mode
  | ("mode", value) => do
    let next ← Mode.ofName? value
    guard (m.admits next)
    return { next with shared := m.shared }
  | ("cache", "shared") => some { m with shared := true }
  | ("cache", "private") => some { m with shared := false }
  | ("cache", _) => none
  | _ => some m

inductive System where
  | unix
  | unlocked
  | marked
  | exclusive
  | memory
deriving DecidableEq, Repr

namespace System

def name : System → String
  | unix => "unix"
  | unlocked => "unix-none"
  | marked => "unix-dotfile"
  | exclusive => "unix-excl"
  | memory => "memdb"

def all : List System := [unix, unlocked, marked, exclusive, memory]

def ofName? (name : String) : Option System := all.find? (·.name == name)

def logs : System → Bool
  | unix | exclusive => true
  | unlocked | marked | memory => false

end System

def system? (options : List (String × String)) : Option System :=
  match options.reverse.find? (·.1 == "vfs") with
  | some (_, name) => System.ofName? name
  | none => some .unix

/-- The value of a number of at most 31 bits, written with decimal or hexadecimal digits; a longer
one counts as zero. What follows the digits does not count. -/
def number (value : List Char) : Nat :=
  let n := match value with
    | '0' :: x :: rest =>
      let digits := rest.takeWhile fun c => (Json.hexValue? c).isSome
      if (x == 'x' || x == 'X') && !digits.isEmpty then
        digits.foldl (fun n c => 16 * n + (Json.hexValue? c).getD 0) 0
      else Text.ofDigits (value.takeWhile Char.isDigit)
    | _ => Text.ofDigits (value.takeWhile Char.isDigit)
  if n < 2147483648 then n else 0

/-- Whether a value switches something on: a number whose lowest byte is not zero, or one of a few
words. -/
def isOn (value : String) : Bool :=
  if (value.toList.head?.map Char.isDigit).getD false then number value.toList % 256 != 0
  else ["on", "yes", "true"].contains (Text.lowerAscii value)

def value? (options : List (String × String)) (name : String) : Option String :=
  (options.find? (·.1 == name)).map (·.2)

def isSet (options : List (String × String)) (name : String) : Bool :=
  ((value? options name).map isOn).getD false

def sharedName? (system : System) (mode : Mode) (name : String) : Option (String × String) :=
  -- an absolute name is shared without being asked for
  let rooted := system == .memory && !mode.inMemory && 1 < name.utf8ByteSize
    && (name.toList.head? == some '/' || name.toList.head? == some '\\')
  if !name.isEmpty && (mode.shared || rooted) then some (system.name, name) else none

def ofName (system : System) (mode : Mode) (options : List (String × String)) (name : String) :
    Location :=
  let access := mode.access
  if name.isEmpty then { file := none, access }
  else if mode.inMemory || name == ":memory:" then
    { file := none, shared := sharedName? system mode name, access }
  else if system == .memory then
    { file := none, shared := sharedName? system mode name, access,
      frozen := isSet options "immutable" }
  else
    { file := some name, access
      frozen := isSet options "immutable"
      logs := system.logs && !isSet options "nolock"
      heeds := system != .marked || isSet options "nolock"
      alone := system == .exclusive
      watches := isSet options "readonly_shm"
      pattern := value? options "modeof" }

def ofAddress? (address : List Char) : Option Location := do
  let path ← match address with
    | '/' :: '/' :: rest =>
      -- only the present machine may be named
      let host := rest.takeWhile (· != '/')
      if host.isEmpty || host == "localhost".toList then some (rest.drop host.length) else none
    | path => some path
  let path := path.takeWhile (· != '#')
  let options := (partsAt '&' (afterFirst '?' path)).filterMap option?
  let mode ← options.foldlM Mode.apply {}
  return ofName (← system? options) mode options (decoded (path.takeWhile (· != '?')))

def ofPath? (path : String) : Option Location :=
  if path.toList.contains '\x00' then none
  else
    match Text.stripLead? "file:" path with
    | some address => ofAddress? address.toList
    | none => some (ofName .unix {} [] path)

end Location

end SpecAtlas
