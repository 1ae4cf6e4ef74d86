import PropertyToolkit.CommandLine.Word

/-!
What a command line says, part by part: its options with their arguments and its runs of words, in
order. Words that have no part are kept as unrecognized. Reading ends with those words, or with the
first word that cannot be read; what was found before counts even then.
-/

set_option autoImplicit false

namespace PropertyToolkit.CommandLine

inductive Finding where
  | option (name : OptionName) (argument : Option Text)
  | words (positional : Positional) (words : List Text)
deriving DecidableEq

structure Findings where
  found : List Finding
  ending : Except Misuse (List Text)

namespace Findings

def failed (misuse : Misuse) : Findings := ⟨[], .error misuse⟩

/-- Findings and unrecognized words before others. -/
def after (rest : Findings) (found : List Finding) (unrecognized : List Text) : Findings :=
  ⟨found ++ rest.found, rest.ending.map (unrecognized ++ ·)⟩

end Findings

/-- The words that belong together at the start of some words, and the others. -/
def Count.take (count : Count) (words : List Word) : Option (List Word × List Word) :=
  if count = .any then some (words.span Word.isPlain)
  else
    let (separators, rest) := words.span Word.isSeparator
    match rest with
    | [] => none
    | first :: rest =>
      if first.kind ≠ .plain then none
      else
        let (more, rest) :=
          match count with
          | .one => rest.span Word.isSeparator
          | .any | .several => rest.span Word.isPlain
          | .everything => (rest, [])
        some (separators ++ first :: more, rest)

/-- The texts of the words of a positional. The first two dashes among them are left out, save where
the words are passed on to a command. -/
def Positional.texts (positional : Positional) (words : List Word) : List Text :=
  if positional = .command then words.map Word.text else (words.map Word.text).erase "--"

/-- What the positionals in turn find at the start of some words, up to the first that finds
nothing; then the positionals and the words that are left. -/
def findPositionals : List Positional → List Word → List Finding × List Positional × List Word
  | [], words => ([], [], words)
  | positional :: others, words =>
    match positional.count.take words with
    | none => ([], positional :: others, words)
    | some (taken, rest) =>
      let (found, left) := findPositionals others rest
      (.words positional (positional.texts taken) :: found, left)

/-- The options that letters after an option stand for, and the letters that stand for none. -/
def Grammar.spell (grammar : Grammar) (option : OptionName) :
    Text → Except Misuse (List OptionName × Text)
  | [] => .ok ([option], [])
  | letter :: letters =>
    if letter = OptionName.dash then .error (.ignoredArgument option (letter :: letters))
    else
      match grammar.lettered? letter with
      | none => .ok ([option], letter :: letters)
      | some next =>
        match letters with
        | sign :: argument =>
          if sign = '=' then .error (.ignoredArgument next argument)
          else (grammar.spell next (sign :: argument)).map fun spelled =>
            (option :: spelled.1, spelled.2)
        | [] => .ok ([option, next], [])

/-- What an option finds, with the words that are left and those that are unrecognized. -/
def Grammar.findOption (grammar : Grammar) (option : OptionName) (attached : Attached)
    (words : List Word) : Except Misuse (List Finding × List Text × List Word) :=
  match attached, option.takesArgument with
  | .nothing, false => .ok ([.option option none], [], words)
  | .nothing, true =>
    match words with
    | [] => .error (.missingArgument option)
    | word :: rest =>
      if word.kind = .plain then .ok ([.option option (some word.text)], [], rest)
      else .error (.missingArgument option)
  | .argument t, true | .letters t, true => .ok ([.option option (some t)], [], words)
  | .argument t, false => .error (.ignoredArgument option t)
  | .letters t, false =>
    (grammar.spell option t).map fun spelled =>
      (spelled.1.map (.option · none),
        if spelled.2 = [] then [] else [OptionName.dash :: spelled.2], words)

theorem length_of_findOption {grammar : Grammar} {option : OptionName} {attached : Attached}
    {words : List Word} {read : List Finding × List Text × List Word}
    (h : grammar.findOption option attached words = .ok read) :
    read.2.2.length ≤ words.length := by
  unfold Grammar.findOption at h
  split at h
  · cases h
    exact Nat.le_refl _
  · split at h
    · cases h
    · split at h
      · cases h
        exact Nat.le_succ _
      · cases h
  · cases h
    exact Nat.le_refl _
  · cases h
    exact Nat.le_refl _
  · cases h
  · next letters _ =>
    cases spelled : grammar.spell option letters with
    | error misuse =>
      rw [spelled] at h
      cases h
    | ok found =>
      rw [spelled] at h
      cases h
      exact Nat.le_refl _

/-- What is found once no options are left. Positionals that are required have to be found. -/
def findLast (positionals : List Positional) (words : List Word) : Findings :=
  let (found, left, rest) := findPositionals positionals words
  let missing := left.filter Positional.isRequired
  ⟨found, if missing = [] then .ok (rest.map Word.text) else .error (.missing missing)⟩

/-- What some words say. Positionals are sought where plain words start, and after the last option
even if there are none. -/
def Grammar.find (grammar : Grammar) (positionals : List Positional) (words : List Word) :
    Findings :=
  if words.all Word.isPlain then findLast positionals words
  else
    match words with
    | [] => findLast positionals []
    | word :: rest =>
      match word.kind with
      | .option option attached =>
        match _h : grammar.findOption option attached rest with
        | .error misuse => .failed misuse
        | .ok (found, unrecognized, left) =>
          (grammar.find positionals left).after found unrecognized
      | .unknown => (grammar.find positionals rest).after [] [word.text]
      | .plain | .separator =>
        let (found, others, left) := findPositionals positionals (word :: rest)
        if left.length < (word :: rest).length then (grammar.find others left).after found []
        else
          (grammar.find others (rest.dropWhile Word.isPlain)).after found
            (word.text :: (rest.takeWhile Word.isPlain).map Word.text)
termination_by words.length
decreasing_by
  · exact Nat.lt_succ_of_le (length_of_findOption _h)
  · exact Nat.lt_succ_self _
  · assumption
  · exact Nat.lt_succ_of_le (List.dropWhile_suffix _).length_le

/-- What a command line says. -/
def Grammar.read (grammar : Grammar) (words : List Text) : Findings :=
  match grammar.words words with
  | .error misuse => .failed misuse
  | .ok words => grammar.find grammar.positionals words

end PropertyToolkit.CommandLine
