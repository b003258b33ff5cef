/-!
# Options

The words after the name of the command. Options that take a value may have it in the same word
or in the next one, flags of one letter may share a word, and every option but `verbose` may be
given once only. There are no other words: anything else makes the invocation refused. The first
`help` or `version` ends the reading, so words after it are not looked at.
-/
namespace LetDef.CommandLine

/-- What is written about a program. -/
inductive Emission where
  /-- The program in Java. -/
  | java
  /-- Its tokens. -/
  | tokens
  /-- Its outline. -/
  | outline
  deriving DecidableEq

/-- What a command is to do. -/
structure Options where
  /-- The path of the source text; without one it is read from standard input. -/
  input : Option String
  /-- The path of the result; without one it is written to standard output. -/
  output : Option String
  /-- What to write. -/
  emission : Emission
  /-- Run the program afterwards. -/
  run : Bool
  deriving DecidableEq

/-- What the words ask for. -/
inductive Invocation where
  /-- To carry out a command. -/
  | execute (options : Options)
  /-- To show the version. -/
  | version
  /-- To show the options. -/
  | help
  /-- Nothing that makes sense. -/
  | refused
  deriving DecidableEq

/-- An option without a value. -/
inductive Flag where
  /-- Run the program. -/
  | run
  /-- Tell more about the progress. -/
  | verbose
  /-- Show the options. -/
  | help
  /-- Show the version. -/
  | version

/-- An option with a value. -/
inductive Setting where
  /-- The path of the source text. -/
  | input
  /-- The path of the result. -/
  | output
  /-- What to write. -/
  | emission

/-- An option. -/
inductive Switch where
  /-- One without a value. -/
  | flag (flag : Flag)
  /-- One with a value. -/
  | setting (setting : Setting)

/-- The option of a word. -/
def Switch.ofWord? : String → Option Switch
  | "input" => some (.setting .input)
  | "output" => some (.setting .output)
  | "emit" => some (.setting .emission)
  | "run" => some (.flag .run)
  | "verbose" => some (.flag .verbose)
  | "help" => some (.flag .help)
  | "version" => some (.flag .version)
  | _ => none

/-- The option of a letter. -/
def Switch.ofLetter? : Char → Option Switch
  | 'i' => some (.setting .input)
  | 'o' => some (.setting .output)
  | 'v' => some (.flag .verbose)
  | 'h' => some (.flag .help)
  | 'V' => some (.flag .version)
  | _ => none

/-- What a word asks to be written. -/
def Emission.ofWord? : String → Option Emission
  | "java" => some .java
  | "tokens" => some .tokens
  | "ast" => some .outline
  | _ => none

/-- The options that have been read. -/
structure Draft where
  /-- The path of the source text. -/
  input : Option String
  /-- The path of the result. -/
  output : Option String
  /-- What to write. -/
  emission : Option Emission
  /-- Run the program afterwards. -/
  run : Bool

namespace Draft

/-- No option has been read. -/
def empty : Draft := ⟨none, none, none, false⟩

/-- The options when no more words follow. -/
def options (draft : Draft) : Options :=
  ⟨draft.input, draft.output, draft.emission.getD .java, draft.run⟩

/-- A path that may be given where none has been given before. -/
def path? (before : Option String) (path : String) : Option String :=
  if before.isSome || path.isEmpty then none else some path

/-- Reads an option with its value. -/
def set (draft : Draft) (setting : Setting) (value : String) : Option Draft :=
  match setting with
  | .input => (path? draft.input value).map fun path => { draft with input := some path }
  | .output => (path? draft.output value).map fun path => { draft with output := some path }
  | .emission =>
    if draft.emission.isSome then none
    else (Emission.ofWord? value).map fun emission => { draft with emission := some emission }

/-- Reads an option without a value, which may end the reading. -/
def raise (draft : Draft) : Flag → Except Invocation Draft
  | .run => if draft.run then .error .refused else .ok { draft with run := true }
  | .verbose => .ok draft
  | .help => .error .help
  | .version => .error .version

/-- Reads letters that share a word. A letter whose option takes a value ends them: what follows
is its value, after an equals sign if there is one, and without anything behind it the value is
the next word. -/
def letters (draft : Draft) : List Char → Except Invocation (Draft × Option Setting)
  | [] => .ok (draft, none)
  | letter :: rest =>
    match Switch.ofLetter? letter with
    | none => .error .refused
    | some (.flag flag) =>
      match draft.raise flag with
      | .error invocation => .error invocation
      | .ok draft => draft.letters rest
    | some (.setting setting) =>
      let value := match rest with
        | '=' :: value => value
        | value => value
      if rest.isEmpty then .ok (draft, some setting)
      else
        match draft.set setting (String.ofList value) with
        | none => .error .refused
        | some draft => .ok (draft, none)

/-- Reads a word in full, in which an equals sign may separate the option from its value. -/
def word (draft : Draft) (text : List Char) : Except Invocation (Draft × Option Setting) :=
  let name := text.takeWhile (· ≠ '=')
  match Switch.ofWord? (String.ofList name), text.drop name.length with
  | some (.flag flag), [] => (draft.raise flag).map (·, none)
  | some (.setting setting), [] => .ok (draft, some setting)
  | some (.setting setting), _ :: value =>
    match draft.set setting (String.ofList value) with
    | none => .error .refused
    | some draft => .ok (draft, none)
  | _, _ => .error .refused

/-- Reads a word that is not the value of an option before it. -/
def switch (draft : Draft) (argument : String) : Except Invocation (Draft × Option Setting) :=
  match argument.toList with
  | '-' :: '-' :: text => draft.word text
  | '-' :: letter :: rest => draft.letters (letter :: rest)
  | _ => .error .refused

/-- A word that begins like an option is not the value of an option before it. -/
def isSwitch (argument : String) : Bool :=
  match argument.toList with
  | '-' :: _ :: _ => true
  | _ => false

/-- Reads the words that are left. -/
def invocation (draft : Draft) : List String → Invocation
  | [] => .execute draft.options
  | argument :: rest =>
    if argument = "--" then (if rest.isEmpty then .execute draft.options else .refused)
    else
      match draft.switch argument with
      | .error invocation => invocation
      | .ok (draft, none) => draft.invocation rest
      | .ok (draft, some setting) =>
        match rest with
        | [] => .refused
        | value :: rest =>
          if isSwitch value then .refused
          else
            match draft.set setting value with
            | none => .refused
            | some draft => draft.invocation rest

end Draft

/-- What the words of a command ask for. -/
def Invocation.ofArguments (arguments : List String) : Invocation :=
  Draft.empty.invocation arguments

end LetDef.CommandLine
