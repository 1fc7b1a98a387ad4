import EnergyChain.Go.Decode

/-!
# Command-line flags

A command of `cobra` hands its arguments to a `pflag.FlagSet`. Arguments that start with a dash are
flags, and everything else is positional, also between flags; two dashes alone end the flags. A flag
takes its value behind an equals sign or from the next argument, and a boolean flag without a value is
set to `true`. The parser here keeps a flag that still waits for its value as its state, so that it
reads one argument at a time.
-/

set_option autoImplicit false

namespace EnergyChain.Go

/-- The types of flags. -/
inductive FlagKind where
  | text
  | bool
  | uint64
  | float64
  deriving DecidableEq, Repr

/-- A flag of a command. -/
structure FlagDef where
  name : GoString
  shorthand : Option UInt8
  kind : FlagKind
  deriving DecidableEq, Repr

/-- The errors of the parser. -/
inductive FlagError where
  | badSyntax (name : GoString)
  | unknownFlag (name : GoString)
  | unknownShorthand (ch : UInt8) (shorthands : GoString)
  | needsArgument (name : GoString)
  | invalidArgument (value name : GoString)
  deriving DecidableEq, Repr

/-- The texts that `strconv.ParseBool` reads as true. -/
def trueTexts : List GoString := ["1", "t", "T", "TRUE", "true", "True"].map bytes

/-- The texts that `strconv.ParseBool` reads as false. -/
def falseTexts : List GoString := ["0", "f", "F", "FALSE", "false", "False"].map bytes

/-- Whether `Value.Set` accepts a text. -/
def FlagKind.accepts : FlagKind → GoString → Bool
  | .text, _ => true
  | .bool, value => trueTexts.contains value || falseTexts.contains value
  | .uint64, value =>
      -- `strconv.ParseUint` in base 0 reads the literals of `setString` without a sign
      match value.head?, setString value 0 with
      | some ch, some z => ch ≠ 43 && ch ≠ 45 && decide (z < 2 ^ 64)
      | _, _ => false
  | .float64, value => (parseFloat value).isSome

/-- The values that were set, in order, and the positional arguments. -/
structure ParsedArgs where
  values : List (GoString × GoString)
  args : List GoString
  deriving DecidableEq, Repr

/-- `FlagSet.GetString` of a flag whose default is empty: the last value that was set. -/
def ParsedArgs.getString (parsed : ParsedArgs) (name : GoString) : GoString :=
  match parsed.values.reverse.find? fun p => p.1 = name with
  | some (_, value) => value
  | none => []

/-- `FlagSet.GetBool` of a flag whose default is false. -/
def ParsedArgs.getBool (parsed : ParsedArgs) (name : GoString) : Bool :=
  trueTexts.contains (parsed.getString name)

/-- `FlagSet.Set`. -/
def FlagDef.assign (flag : FlagDef) (value : GoString) : Except FlagError (GoString × GoString) :=
  if flag.kind.accepts value then .ok (flag.name, value)
  else .error (.invalidArgument value flag.name)

section

variable (flags : List FlagDef)

/-- `parseLongArg`, without the two dashes: the value that is set, or the flag that waits for it. -/
def parseLongArg (name : GoString) :
    Except FlagError (List (GoString × GoString) × Option FlagDef) :=
  if name.head? = some 45 ∨ name.head? = some 61 then .error (.badSyntax name)
  else
    match flags.find? fun flag => flag.name = name.takeWhile (· ≠ 61) with
    | none => .error (.unknownFlag (name.takeWhile (· ≠ 61)))
    | some flag =>
        match name.dropWhile (· ≠ 61) with
        | _ :: value => do return ([← flag.assign value], none)
        | [] =>
            if flag.kind = .bool then do return ([← flag.assign (bytes "true")], none)
            else .ok ([], some flag)

/-- `parseShortArg`, without the dash: boolean flags can share one argument. -/
def parseShortArg : GoString → Except FlagError (List (GoString × GoString) × Option FlagDef)
  | [] => .ok ([], none)
  | ch :: rest =>
      -- arguments of the test runner are ignored
      if bytes "test." <+: ch :: rest then .ok ([], none)
      else
        match flags.find? fun flag => flag.shorthand = some ch with
        | none => .error (.unknownShorthand ch (ch :: rest))
        | some flag =>
            if rest.head? = some 61 ∧ 2 ≤ rest.length then do
              return ([← flag.assign rest.tail], none)
            else if flag.kind = .bool then do
              let value ← flag.assign (bytes "true")
              let (values, pending) ← parseShortArg rest
              return (value :: values, pending)
            else if rest ≠ [] then do return ([← flag.assign rest], none)
            else .ok ([], some flag)

/-- `parseArgs`, with the flag that waits for its value. -/
def parseArgs : Option FlagDef → List GoString → Except FlagError ParsedArgs
  | none, [] => .ok ⟨[], []⟩
  | some flag, [] => .error (.needsArgument flag.name)
  | some flag, value :: rest => do
      let value ← flag.assign value
      let parsed ← parseArgs none rest
      return { parsed with values := value :: parsed.values }
  | none, arg :: rest =>
      match arg with
      | 45 :: 45 :: [] => .ok ⟨[], rest⟩
      | 45 :: 45 :: name => do
          let (values, pending) ← parseLongArg flags name
          let parsed ← parseArgs pending rest
          return { parsed with values := values ++ parsed.values }
      | 45 :: ch :: shorthands => do
          let (values, pending) ← parseShortArg flags (ch :: shorthands)
          let parsed ← parseArgs pending rest
          return { parsed with values := values ++ parsed.values }
      | _ => do
          let parsed ← parseArgs none rest
          return { parsed with args := arg :: parsed.args }

end

/-- An argument that does not start with a dash is positional. -/
theorem parseArgs_positional {flags : List FlagDef} {arg : GoString} (h : arg.head? ≠ some 45)
    (rest : List GoString) :
    parseArgs flags none (arg :: rest) =
      (parseArgs flags none rest).map fun parsed => { parsed with args := arg :: parsed.args } := by
  have hdash : ∀ text, arg ≠ 45 :: text := by
    rintro text rfl
    exact h rfl
  rw [parseArgs]
  · cases parseArgs flags none rest <;> rfl
  · exact hdash _
  · exact fun name => hdash _
  · exact fun ch shorthands => hdash _

/-- A flag of texts takes the next argument as it is. -/
theorem parseArgs_text {flags : List FlagDef} {name : GoString} {flag : FlagDef}
    (hname : name ≠ []) (hflag : parseLongArg flags name = .ok ([], some flag))
    (hkind : flag.kind = .text) (value : GoString) (rest : List GoString) :
    parseArgs flags none ((45 :: 45 :: name) :: value :: rest) =
      (parseArgs flags none rest).map fun parsed =>
        { parsed with values := (flag.name, value) :: parsed.values } := by
  have hassign : flag.assign value = .ok (flag.name, value) := by
    rw [FlagDef.assign, hkind]
    rfl
  rw [parseArgs]
  · rw [hflag]
    change (parseArgs flags (some flag) (value :: rest) >>= fun parsed =>
      pure { parsed with values := [] ++ parsed.values }) = _
    rw [parseArgs, hassign]
    cases parseArgs flags none rest <;> rfl
  · exact hname

end EnergyChain.Go
