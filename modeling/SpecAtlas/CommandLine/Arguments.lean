/-!
Reading the words of a command line as options with values. The words are read in order and the
first fault is reported. A value that stands in a word of its own is checked only when the next
option, or the end, shows that it is complete.
-/

namespace SpecAtlas.CommandLine

inductive Stop where
  | invalidValue
  | malformedValue
  | unwantedValue
  | repeatedOption
  | unknownArgument
  | unknownCommand
  | missingArgument
  | help
  | version
deriving DecidableEq, Repr

def Stop.message : Stop → String
  | .invalidValue => "a value is missing or not a possible one"
  | .malformedValue => "a value is malformed"
  | .unwantedValue => "an option takes no value"
  | .repeatedOption => "an option is repeated"
  | .unknownArgument => "unknown argument"
  | .unknownCommand => "unknown command"
  | .missingArgument => "a required argument is missing"
  | .help => "help was asked for"
  | .version => "the version was asked for"

inductive Kind where
  | flag
  | single (check : String → Option Stop)
  | repeated (check : String → Option Stop)
  | request (stop : Stop)

structure OptionSpec where
  name : String
  letter : Option Char := none
  kind : Kind

namespace OptionSpec

def takesValue (o : OptionSpec) : Bool :=
  match o.kind with
  | .single _ | .repeated _ => true
  | .flag | .request _ => false

end OptionSpec

structure Pending where
  spec : OptionSpec
  value : Option String := none

structure Reading where
  given : List (String × String) := []
  pending : Option Pending := none
  escaped : Bool := false

namespace Reading

def has (r : Reading) (name : String) : Bool := r.given.any (·.1 == name)

def value? (r : Reading) (name : String) : Option String :=
  (r.given.find? (·.1 == name)).map (·.2)

def values (r : Reading) (name : String) : List String :=
  (r.given.filter (·.1 == name)).map (·.2)

def add (r : Reading) (name value : String) : Reading :=
  { r with given := r.given ++ [(name, value)] }

def addOnce (r : Reading) (name value : String) : Except Stop Reading :=
  if r.has name then .error .repeatedOption else .ok (r.add name value)

def record (r : Reading) (o : OptionSpec) (value : String) : Except Stop Reading :=
  match o.kind with
  | .flag => r.addOnce o.name value
  | .request stop => .error stop
  | .single check => do
    -- a repeated option is refused whatever its value
    let r ← r.addOnce o.name value
    match check value with
    | some stop => .error stop
    | none => .ok r
  | .repeated check =>
    match check value with
    | some stop => .error stop
    | none => .ok (r.add o.name value)

def settle (r : Reading) : Except Stop Reading :=
  match r.pending with
  | none => .ok r
  | some { value := none, .. } => .error .invalidValue
  | some { spec, value := some value } => { r with pending := none }.record spec value

def start (r : Reading) (o : OptionSpec) (attached : Option String) : Except Stop Reading :=
  if o.takesValue then do
    -- the option before it may still be pending
    let r ← r.settle
    match attached with
    | some value => r.record o value
    | none => .ok { r with pending := some { spec := o } }
  else if attached.isSome then .error .unwantedValue
  else do (← r.settle).record o ""

def letters (options : List OptionSpec) (r : Reading) : List Char → Except Stop Reading
  | [] => .ok r
  | c :: rest =>
    match options.find? (·.letter == some c) with
    | none => .error .unknownArgument
    | some o =>
      if o.takesValue then
        -- the letters behind it are its value
        match rest with
        | [] => r.start o none
        | '=' :: value => r.start o (some (String.ofList value))
        | value => r.start o (some (String.ofList value))
      else do letters options (← r.start o none) rest

def long (options : List OptionSpec) (r : Reading) (word : List Char) : Except Stop Reading :=
  let name := String.ofList (word.takeWhile (· != '='))
  match options.find? (·.name == name) with
  | none => .error .unknownArgument
  | some o =>
    r.start o (match word.dropWhile (· != '=') with
      | [] => none
      | _ :: value => some (String.ofList value))

def plain (stray : Stop) (r : Reading) (word : String) : Except Stop Reading :=
  match r.pending with
  | some { spec, value := none } => .ok { r with pending := some { spec, value := some word } }
  | _ => .error stray

/-- Takes up one word; `stray` is the fault of a word that belongs to nothing. -/
def word (options : List OptionSpec) (stray : Stop) (r : Reading) (word : String) :
    Except Stop Reading :=
  if r.escaped then .error stray
  else
    match word.toList with
    | ['-', '-'] => .ok { r with escaped := true }
    | '-' :: '-' :: rest => r.long options rest
    | '-' :: c :: rest => r.letters options (c :: rest)
    | _ => r.plain stray word

def ofWords (options : List OptionSpec) (words : List String) : Except Stop Reading := do
  (← words.foldlM (word options .unknownArgument) {}).settle

def demand (r : Reading) (required : List String) (needs : List (String × String)) :
    Except Stop Unit :=
  if required.all r.has && needs.all (fun (o, p) => !r.has o || r.has p) then .ok ()
  else .error .missingArgument

end Reading

end SpecAtlas.CommandLine
