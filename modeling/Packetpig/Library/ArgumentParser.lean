/-
Python's `argparse` for parsers with options only: options that store their
argument, options that set a flag, and help.

There are no positional arguments and no subparsers. A parser that reports an
error or prints its help ends the program; both are the absence of a result.
-/

import Packetpig.Library.Text

namespace Packetpig.ArgumentParser

open Text

def dash : Byte := 45

def equalsSign : Byte := 61

inductive Action (γ : Type) where
  | store (set : γ → Bytes → γ)
  | storeTrue (set : γ → γ)
  | help

/-- What `_parse_optional` says of one argument: a value, an option with the
argument written into the same word, or an error. -/
inductive Meaning (γ : Type) where
  | value
  | option (action : Action γ) (optionString : Bytes) (explicitArg : Option Bytes)
  | refused

section Parser

variable {γ : Type} (options : List (Bytes × Action γ))

/-- The text up to the first `=` and the text behind it. -/
def cutAtEquals (arg : Bytes) : Bytes × Option Bytes :=
  (arg.takeWhile (· ≠ equalsSign), (arg.dropWhile (· ≠ equalsSign)).tail?)

/-- `^-\d+$|^-\d*\.\d+$` behind the dash; `$` also matches before a last line end. -/
def negativeNumber (arg : Bytes) : Bool :=
  let text := arg.tail
  let text := if text.getLast? = some lineFeed then text.dropLast else text
  let fraction := text.dropWhile (isDigit 10)
  (text ≠ [] ∧ fraction = []) ∨
    (fraction.head? = some 46 ∧ fraction.tail ≠ [] ∧ fraction.tail.all (isDigit 10))

/-- `_get_option_tuples`: the options that a word with two dashes abbreviates; a
word with one dash may also be a one-letter option followed by its argument. -/
def optionTuples (arg : Bytes) : List (Meaning γ) :=
  if arg[1]? = some dash then
    let (front, explicitArg) := cutAtEquals arg
    (options.filter fun entry => front.isPrefixOf entry.1).map fun entry =>
      .option entry.2 entry.1 explicitArg
  else
    options.filterMap fun entry =>
      if entry.1 = arg.take 2 then some (.option entry.2 entry.1 (some (arg.drop 2)))
      else if arg.isPrefixOf entry.1 then some (.option entry.2 entry.1 none)
      else none

/-- `_parse_optional`. -/
def parseOptional (arg : Bytes) : Meaning γ :=
  if arg.head? ≠ some dash then .value
  else
    match options.lookup arg with
    | some action => .option action arg none
    | none =>
        if arg.length = 1 then .value
        else
          let (front, explicitArg) := cutAtEquals arg
          match explicitArg, options.lookup front with
          | some explicitArg, some action => .option action front (some explicitArg)
          | _, _ =>
              match optionTuples options arg with
              | [meaning] => meaning
              | [] => if negativeNumber arg ∨ space ∈ arg then .value else .refused
              | _ => .refused

/-- The pattern letter `A`; the word `--` has a letter of its own. -/
def isValue (arg : Bytes) : Bool :=
  arg ≠ [dash, dash] &&
    match parseOptional options arg with
    | .value => true
    | _ => false

/-- An option with nothing behind it in its word: the setter that waits for the
next word, if the option takes an argument. -/
def consumeAction (config : γ) : Action γ → Option (γ × Option (γ → Bytes → γ))
  | .store set => some (config, some set)
  | .storeTrue set => some (set config, none)
  | .help => none

/-- An option with its argument in the same word. Behind a flag the text goes on
as one-letter options; an argument `--` is removed and then missed. -/
def consumeExplicit (config : γ) :
    Action γ → Bytes → Option (γ × Option (γ → Bytes → γ))
  | .store set, explicitArg =>
      if explicitArg = [dash, dash] then none else some (set config explicitArg, none)
  | .storeTrue _, [] => none
  | .storeTrue set, letter :: rest =>
      match options.lookup [dash, letter] with
      | none => none
      | some action =>
          if rest = [] then consumeAction (set config) action
          else consumeExplicit (set config) action rest
  | .help, _ => none

/-- `consume_optional`; a flag with two dashes takes no argument. -/
def consumeOptional (config : γ) (action : Action γ) (optionString : Bytes)
    (explicitArg : Option Bytes) : Option (γ × Option (γ → Bytes → γ)) :=
  match explicitArg with
  | none => consumeAction config action
  | some explicitArg =>
      match action with
      | .store _ => consumeExplicit options config action explicitArg
      | _ =>
          if optionString[1]? = some dash then none
          else consumeExplicit options config action explicitArg

/-- `parse_args`, with the setter of the last option while its argument is
missing. A value that no option takes is an unrecognized argument. -/
def parseArgs : γ → Option (γ → Bytes → γ) → List Bytes → Option γ
  | config, none, [] => some config
  | _, some _, [] => none
  | config, some set, arg :: args =>
      if isValue options arg then parseArgs (set config arg) none args else none
  | config, none, arg :: args =>
      if arg = [dash, dash] then none
      else
        match parseOptional options arg with
        | .option action optionString explicitArg =>
            (consumeOptional options config action optionString explicitArg).bind fun after =>
              parseArgs after.1 after.2 args
        | _ => none

theorem isValue_of_head {arg : Bytes} (plain : arg.head? ≠ some dash) :
    isValue options arg = true := by
  have notDashes : arg ≠ [dash, dash] := by
    intro dashes
    exact plain (by rw [dashes, List.head?_cons])
  unfold isValue parseOptional
  rw [if_pos plain, decide_eq_true notDashes]
  rfl

/-- An option string is written with a dash and is not the word `--`. -/
def IsOptionString (word : Bytes) : Prop :=
  word.head? = some dash ∧ word ≠ [dash, dash]

variable {options}

private theorem parseOptional_lookup {word : Bytes} {action : Action γ}
    (shape : IsOptionString word) (known : options.lookup word = some action) :
    parseOptional options word = .option action word none := by
  unfold parseOptional
  rw [if_neg (not_not_intro shape.1), known]

theorem parseArgs_store {word value : Bytes} {set : γ → Bytes → γ}
    (shape : IsOptionString word) (known : options.lookup word = some (.store set))
    (isArgument : isValue options value = true) (config : γ) (args : List Bytes) :
    parseArgs options config none (word :: value :: args) =
      parseArgs options (set config value) none args := by
  have meaning := parseOptional_lookup shape known
  rw [parseArgs, if_neg shape.2, meaning]
  simp only [consumeOptional, consumeAction, Option.bind_some]
  rw [parseArgs, if_pos isArgument]

theorem parseArgs_storeTrue {word : Bytes} {set : γ → γ} (shape : IsOptionString word)
    (known : options.lookup word = some (.storeTrue set)) (config : γ) (args : List Bytes) :
    parseArgs options config none (word :: args) = parseArgs options (set config) none args := by
  have meaning := parseOptional_lookup shape known
  rw [parseArgs, if_neg shape.2, meaning]
  rfl

end Parser

end Packetpig.ArgumentParser
