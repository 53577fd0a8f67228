import SwiftScribe.Command.Basic

/-!
# Command lines

A command line is a verb and settings. A setting is spelled out after two dashes or, for some, by a
letter after one. Its values are the arguments up to the next one with a dash, or the one that is
attached to it. Only the inputs take several values and can be given again.

The values of a setting are looked at when the next setting or the end is reached, so which of two
mistakes is reported depends on their order (`Parsing.settle`).
-/

namespace SwiftScribe

/-- **Why a command line is refused.** -/
inductive UsageError where
  /-- Help is asked for. -/
  | help
  | noCommand
  | unknownCommand (name : String)
  | noInput
  /-- A setting has no value, or an empty one where a path is due. -/
  | noValue (name : String)
  /-- A value is attached where none is taken. -/
  | excessValue (name : String)
  /-- A setting with one value is given twice. -/
  | repeated (name : String)
  | unknownArgument (text : String)
deriving DecidableEq

/-- The wording of a usage error. -/
def UsageError.message : UsageError → String
  | .help => "usage: (swift | types) -i FILE... [--types FILE] [-o FILE]"
  | .noCommand => "a command is required: swift or types"
  | .unknownCommand name => "unrecognized command '" ++ name ++ "'"
  | .noInput => "an input is required: -i FILE..."
  | .noValue name => "a value is required for '" ++ name ++ "'"
  | .excessValue name => "'" ++ name ++ "' takes no value"
  | .repeated name => "'" ++ name ++ "' cannot be given twice"
  | .unknownArgument text => "unexpected argument '" ++ text ++ "'"

/-- What a command line asks for. -/
inductive Verb where
  | swift
  | types
deriving DecidableEq

/-- The verb that a word names. -/
def Verb.ofText? : String → Option Verb
  | "swift" => some .swift
  | "types" => some .types
  | _ => none

/-- **A setting** that a command line can hold. -/
inductive Setting where
  | input
  | types
  | typesOut
  | ast
  | out
deriving DecidableEq

namespace Setting

/-- The name of a setting, which stands after two dashes. -/
def name : Setting → String
  | .input => "input"
  | .types => "types"
  | .typesOut => "types-out"
  | .ast => "ast"
  | .out => "out"

/-- The letter of a setting, which stands after one dash. -/
def letter? : Setting → Option Char
  | .input => some 'i'
  | .out => some 'o'
  | _ => none

end Setting

/-- The settings that go with a verb. -/
def Verb.settings : Verb → List Setting
  | .swift => [.input, .types, .typesOut, .ast, .out]
  | .types => [.input, .types, .out]

/-! ## Arguments -/

/-- **An argument by its dashes.** -/
inductive Argument where
  /-- Two dashes and nothing else. -/
  | mark
  | long (name : String) (value? : Option String)
  | short (letter : Char) (value? : Option String)
  | plain (text : String)

/-- A text up to the first equals sign, and what stands after it. -/
def cutEquals (cs : List Char) : String × Option String :=
  (String.ofList (cs.takeWhile (· != '=')),
    match cs.dropWhile (· != '=') with
    | [] => none
    | _ :: value => some (String.ofList value))

/-- What is attached to a letter, with or without an equals sign. -/
def attached? : List Char → Option String
  | [] => none
  | '=' :: value => some (String.ofList value)
  | value => some (String.ofList value)

/-- **What an argument is.** A dash alone is an ordinary text. -/
def Argument.ofText (text : String) : Argument :=
  match text.toList with
  | ['-', '-'] => .mark
  | '-' :: '-' :: rest => .long (cutEquals rest).1 (cutEquals rest).2
  | '-' :: letter :: rest => .short letter (attached? rest)
  | _ => .plain text

/-! ## Settings in order -/

/-- How far the reading of settings has come. -/
structure Parsing where
  /-- The settings that have been looked at, in order. -/
  settled : List (Setting × List String)
  /-- The setting that may still get values. -/
  pending? : Option (Setting × List String)

namespace Parsing

/-- Nothing read yet. -/
def start : Parsing := ⟨[], none⟩

/-- The values that a setting has been given. -/
def values (parsing : Parsing) (setting : Setting) : List String :=
  (parsing.settled.filter (·.1 = setting)).flatMap (·.2)

/-- Looks at a setting with its values and keeps them. -/
def add (parsing : Parsing) (setting : Setting) (values : List String) : Except UsageError Parsing :=
  if values = [] then .error (.noValue setting.name)
  else if setting ≠ .input ∧ parsing.values setting ≠ [] then .error (.repeated setting.name)
  else if setting ≠ .input ∧ "" ∈ values then .error (.noValue setting.name)
  else .ok { parsing with settled := parsing.settled ++ [(setting, values)] }

/-- Looks at the setting that is pending. -/
def settle (parsing : Parsing) : Except UsageError Parsing :=
  match parsing.pending? with
  | none => .ok parsing
  | some (setting, values) => add { parsing with pending? := none } setting values

/-- A setting comes up; with a value attached to it, it takes no other. -/
def begin (parsing : Parsing) (setting : Setting) (value? : Option String) :
    Except UsageError Parsing := do
  let parsing ← parsing.settle
  match value? with
  | some value => parsing.add setting [value]
  | none => return { parsing with pending? := some (setting, []) }

/-- A plain argument is a value of the setting that is pending. -/
def take (parsing : Parsing) (value : String) : Except UsageError Parsing :=
  match parsing.pending? with
  | some (setting, values) =>
    if setting = .input ∨ values = [] then
      .ok { parsing with pending? := some (setting, values ++ [value]) }
    else .error (.unknownArgument value)
  | none => .error (.unknownArgument value)

/-- **Reads the arguments after a verb.** Nothing may follow two dashes. -/
def read (verb : Verb) (parsing : Parsing) : List String → Except UsageError Parsing
  | [] => parsing.settle
  | text :: rest =>
    match Argument.ofText text with
    | .mark =>
      match rest with
      | [] => parsing.settle
      | stray :: _ => .error (.unknownArgument stray)
    | .long "help" none | .short 'h' _ => parsing.settle.bind fun _ => .error .help
    | .long "help" (some _) => .error (.excessValue "help")
    | .long name value? =>
      match verb.settings.find? (·.name == name) with
      | some setting => do (← parsing.begin setting value?).read verb rest
      | none => .error (.unknownArgument text)
    | .short letter value? =>
      match verb.settings.find? (·.letter? == some letter) with
      | some setting => do (← parsing.begin setting value?).read verb rest
      | none => .error (.unknownArgument text)
    | .plain value => do (← parsing.take value).read verb rest

/-- The command that a verb and its settings make. -/
def command (parsing : Parsing) (verb : Verb) : Except UsageError Command :=
  let one setting := (parsing.values setting).head?
  match parsing.values .input with
  | [] => .error .noInput
  | patterns =>
    let inputs : Inputs := { patterns, types? := one .types }
    match verb with
    | .swift => .ok (.swift inputs (one .typesOut) (one .ast) (one .out))
    | .types => .ok (.types inputs (one .out))

end Parsing

/-- What comes of asking for help on a command. -/
def helpOn : List String → UsageError
  | [] => .help
  | name :: rest =>
    if name == "help" || (Verb.ofText? name).isSome then
      match rest with
      | [] => .help
      | other :: _ => .unknownCommand other
    else .unknownCommand name

/-- **The command that a command line stands for.** -/
def Command.ofArguments : List String → Except UsageError Command
  | [] => .error .noCommand
  | text :: rest =>
    match Verb.ofText? text with
    | some verb => do (← Parsing.start.read verb rest).command verb
    | none =>
      if text == "help" then .error (helpOn rest)
      else
        match Argument.ofText text with
        | .mark =>
          match rest with
          | [] => .error .noCommand
          | name :: _ =>
            if name == "help" || (Verb.ofText? name).isSome then .error (.unknownArgument name)
            else .error (.unknownCommand name)
        | .long "help" none | .short 'h' _ => .error .help
        | .long "help" (some _) => .error (.excessValue "help")
        | .long .. | .short .. => .error (.unknownArgument text)
        | .plain name => .error (.unknownCommand name)

end SwiftScribe
