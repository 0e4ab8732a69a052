import AwkStartup.CommandLine.Group
import AwkStartup.CommandLine.LongOption

/-!
# Reading a command line

The tokens after the program name are read from the left into items: switches with their
values, and skipped long options. Reading stops at the end of the options, at an item that ends
them, or at a fault. It looks neither at global names nor at files.
-/

namespace AwkStartup

/-- The switches. All of them take a value. -/
inductive Switch where
  | implementation
  | separator
  | assign
  | programFile
  deriving DecidableEq, Repr

namespace Switch

def letter : Switch → Char
  | implementation => 'W'
  | separator => 'F'
  | assign => 'v'
  | programFile => 'f'

def ofLetter? : Char → Option Switch
  | 'W' => some implementation
  | 'F' => some separator
  | 'v' => some assign
  | 'f' => some programFile
  | _ => none

@[simp] theorem ofLetter?_letter (s : Switch) : ofLetter? s.letter = some s := by
  cases s <;> rfl

theorem letter_of_ofLetter? {c : Char} {s : Switch} (h : ofLetter? c = some s) : s.letter = c := by
  unfold ofLetter? at h
  split at h <;> simp_all [letter] <;> subst h <;> rfl

def token (s : Switch) : String :=
  String.ofList ['-', s.letter]

def gluedToken (s : Switch) (value : String) : String :=
  String.ofList ('-' :: s.letter :: value.toList)

end Switch

/-- Long spellings that are known but not supported. -/
def knownLongOptions : List String :=
  ["--lint", "--lint-old", "--posix", "--re-interval", "--traditional"]

/-- The fault of a token that is no option. -/
def badOption (token : String) : StartupError :=
  if token ∈ knownLongOptions then .unsupportedOption token else .notAnOption token

/-- What one token is where an option may stand. -/
inductive Token where
  | operand
  | dash
  | terminator
  | skipped (reported : Bool)
  | bare (switch : Switch)
  | glued (switch : Switch) (value : String)
  | refused (fault : StartupError)
  deriving DecidableEq, Repr

namespace Token

/-- A token that starts with a hyphen and is longer. Its letter is its second byte, and what
follows that byte is its value. -/
def ofOption (token : String) : Token :=
  match (Text.bytes token)[1]? with
  | none => .refused (.badOffset 1)
  | some byte =>
    if 128 ≤ byte then .refused (badOption token)
    else
      match Text.from? token 2 with
      | none => .refused (.badOffset 2)
      | some value =>
        let letter := Char.ofNat byte.toNat
        if letter = '-' then if value = "" then .terminator else .refused (badOption token)
        else
          match Switch.ofLetter? letter with
          | none => .refused (badOption token)
          | some switch => if value = "" then .bare switch else .glued switch value

def ofLong (policy : LongOptionPolicy) (token : String) : Token :=
  match policy.decide with
  | .reject => .refused (badOption token)
  | .warn => .skipped true
  | .skip => .skipped false
  | .dispatch => ofOption token

def of (policy : LongOptionPolicy) (token : String) : Token :=
  match token.toList with
  | ['-'] => .dash
  | '-' :: _ => if isLongOption token then ofLong policy token else ofOption token
  | _ => .operand

end Token

namespace CommandLine

/-- What was read: a skipped long option, or a switch with its value in the same token or in the
next. -/
inductive Item where
  | skipped (token : String) (reported : Bool)
  | glued (switch : Switch) (value : String)
  | separate (switch : Switch) (value : String)
  deriving DecidableEq, Repr

namespace Item

def tokens : Item → List String
  | skipped token _ => [token]
  | glued switch value => [switch.gluedToken value]
  | separate switch value => [switch.token, value]

end Item

/-- The keywords of implementation options. -/
abbrev Keywords := List (Abbreviation.Keyword ImplementationOption)

def switchDirectives (keywords : Keywords) (switch : Switch) (value : String) : List Directive :=
  match switch with
  | .implementation => (Group.read keywords value).directives
  | .separator => [.separator value]
  | .assign => [.assign value]
  | .programFile => [.programFile value]

def Item.directives (keywords : Keywords) : Item → List Directive
  | skipped token reported => if reported then [.ignoredLong token] else []
  | glued switch value | separate switch value => switchDirectives keywords switch value

/-- How reading a switch goes on: only a group can end it. -/
def switchEnding (keywords : Keywords) (switch : Switch) (value : String) : Group.Ending :=
  match switch with
  | .implementation => (Group.read keywords value).ending
  | _ => .through

/-- How reading ends. The index counts the tokens before the remaining ones, the program name
among them. -/
inductive Ending where
  | operands (index : Nat) (rest : List String)
  | dash (index : Nat) (rest : List String)
  | terminated (index : Nat) (rest : List String)
  | exec (glued : Option String) (index : Nat) (rest : List String)
  | usage
  | refused (fault : StartupError)
  deriving DecidableEq, Repr

/-- The items of a command line and how reading ended. -/
structure Reading where
  items : List Item
  ending : Ending
  deriving DecidableEq, Repr

def Reading.after (item : Item) (reading : Reading) : Reading :=
  ⟨item :: reading.items, reading.ending⟩

/-- Reads a switch: reading goes on with `following`, unless the value ends it. -/
def readSwitch (keywords : Keywords) (item : Item) (switch : Switch) (value : String) (index : Nat)
    (rest : List String) (following : Reading) : Reading :=
  match switchEnding keywords switch value with
  | .through => following.after item
  | .exec glued => ⟨[item], .exec glued index rest⟩
  | .usage => ⟨[item], .usage⟩
  | .refused fault => ⟨[item], .refused fault⟩

def readFrom (keywords : Keywords) (policy : LongOptionPolicy) : Nat → List String → Reading
  | index, [] => ⟨[], .operands index []⟩
  | index, token :: rest =>
    match Token.of policy token with
    | .operand => ⟨[], .operands index (token :: rest)⟩
    | .dash => ⟨[], .dash index (token :: rest)⟩
    | .terminator => ⟨[], .terminated (index + 1) rest⟩
    | .skipped reported =>
      (readFrom keywords policy (index + 1) rest).after (.skipped token reported)
    | .refused fault => ⟨[], .refused fault⟩
    | .glued switch value =>
      readSwitch keywords (.glued switch value) switch value (index + 1) rest
        (readFrom keywords policy (index + 1) rest)
    | .bare switch =>
      match rest with
      | [] => ⟨[], .refused (.missingArgument token)⟩
      | value :: rest =>
        readSwitch keywords (.separate switch value) switch value (index + 2) rest
          (readFrom keywords policy (index + 2) rest)

/-- Reads the tokens after the program name. -/
def read (keywords : Keywords) (policy : LongOptionPolicy) (tokens : List String) : Reading :=
  readFrom keywords policy 1 tokens

end CommandLine
end AwkStartup
