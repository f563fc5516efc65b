import Unseal.Options

/-!
# Command lines

The words of a command line are read in two steps: first each as a setting, a switch or the
name of an event, then all together as a command. Only envelopes may be set more than once.
-/

set_option autoImplicit false

namespace Unseal

inductive Setting where
  | config | schema | schemaDirectory | model | envelope | unknownFields
deriving DecidableEq, Repr

inductive Switch where
  | compact | jsonLogs
deriving DecidableEq, Repr

inductive Argument where
  | setting (s : Setting) (value : String)
  | switch (s : Switch)
  | event (path : String)
deriving DecidableEq, Repr

namespace Setting

def all : List Setting := [config, schema, schemaDirectory, model, envelope, unknownFields]

def name : Setting → String
  | config => "config"
  | schema => "schema"
  | schemaDirectory => "schema-dir"
  | model => "model"
  | envelope => "envelope"
  | unknownFields => "unknown-fields"

def ofName? (name : String) : Option Setting := all.find? fun s => s.name == name

end Setting

namespace Switch

def all : List Switch := [compact, jsonLogs]

def name : Switch → String
  | compact => "compact"
  | jsonLogs => "log-json"

def ofName? (name : String) : Option Switch := all.find? fun s => s.name == name

end Switch

/-! ## Words -/

/-- A word by its beginning. A single dash is an event like any other. -/
inductive Word where
  | separator
  /-- A long name and what is attached to it by an equals sign. -/
  | named (name : String) (value : Option String)
  /-- What follows the short name of the envelopes. -/
  | brief (value : Option String)
  | unknown
  | event (path : String)
deriving DecidableEq, Repr

def splitEquals : List Char → List Char × Option (List Char)
  | [] => ([], none)
  | c :: cs =>
    if c = '=' then ([], some cs)
    else
      let (name, value) := splitEquals cs
      (c :: name, value)

def Word.ofString (word : String) : Word :=
  match word.toList with
  | '-' :: '-' :: [] => .separator
  | '-' :: '-' :: cs =>
    let (name, value) := splitEquals cs
    .named (String.ofList name) (value.map String.ofList)
  | '-' :: 'e' :: [] => .brief none
  | '-' :: 'e' :: '=' :: cs => .brief (some (String.ofList cs))
  | '-' :: 'e' :: cs => .brief (some (String.ofList cs))
  | '-' :: _ :: _ => .unknown
  | _ => .event word

namespace Argument

/-- The arguments that the words make, if each is known and has its value. A value that is a
word of its own cannot look like an option. After the separator all words are events. -/
def ofWords : List String → Option (List Argument)
  | [] => some []
  | word :: rest =>
    let next (s : Setting) : Option (List Argument) :=
      match rest with
      | [] => none
      | value :: rest =>
        match Word.ofString value with
        | .event _ => (ofWords rest).map (.setting s value :: ·)
        | _ => none
    match Word.ofString word with
    | .separator => some (rest.map .event)
    | .unknown => none
    | .event path => (ofWords rest).map (.event path :: ·)
    | .brief none => next .envelope
    | .brief (some value) => (ofWords rest).map (.setting .envelope value :: ·)
    | .named name value =>
      match Setting.ofName? name, Switch.ofName? name, value with
      | some s, _, some value => (ofWords rest).map (.setting s value :: ·)
      | some s, _, none => next s
      | none, some s, none => (ofWords rest).map (.switch s :: ·)
      | _, _, _ => none

def values (s : Setting) (arguments : List Argument) : List String :=
  arguments.filterMap fun
    | .setting t value => if s = t then some value else none
    | _ => none

def events (arguments : List Argument) : List String :=
  arguments.filterMap fun
    | .event path => some path
    | _ => none

def atMostOne {α : Type} : List α → Option (Option α)
  | [] => some none
  | [x] => some (some x)
  | _ => none

def single? (s : Setting) (arguments : List Argument) : Option (Option String) :=
  atMostOne (values s arguments)

/-- A path that is given must not be empty. -/
def path? (s : Setting) (arguments : List Argument) : Option (Option String) := do
  match ← single? s arguments with
  | some "" => none
  | path => pure path

def isOn? (s : Switch) (arguments : List Argument) : Option Bool := do
  let given ← atMostOne (arguments.filter (· == .switch s))
  pure given.isSome

end Argument

/-! ## Commands -/

def Options.ofArguments (arguments : List Argument) : Option Options := do
  let _ ← Argument.isOn? .jsonLogs arguments
  match Argument.events arguments with
  | [event] =>
    if event = "" then none
    else
      let policy ← match ← Argument.single? .unknownFields arguments with
        | none => pure none
        | some text => (UnknownFields.ofName text).toOption.map some
      pure ⟨event, ← Argument.path? .config arguments, ← Argument.path? .schema arguments,
        ← Argument.path? .schemaDirectory arguments, ← Argument.single? .model arguments,
        Argument.values .envelope arguments, policy, ← Argument.isOn? .compact arguments⟩
  | _ => none

inductive Command where
  | parse (o : Options)
  | envelopes
deriving DecidableEq, Repr

/-- The command of a command line. The switch for logs may also stand before the command. -/
def Command.ofWords (words : List String) : Option Command := do
  let words := match words with
    | "--log-json" :: rest => rest
    | words => words
  match words with
  | "parse" :: rest => (Options.ofArguments (← Argument.ofWords rest)).map .parse
  | "envelopes" :: rest =>
    match ← Argument.ofWords rest with
    | [] => pure .envelopes
    | [.switch .jsonLogs] => pure .envelopes
    | _ => none
  | _ => none

end Unseal
