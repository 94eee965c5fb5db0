/-!
# The grammar of the command line

Commands form a tree: a level is the program itself, a group of commands, or a single command. Each
level has its options; three options may stand at any level.

* `Level`, `Verb` — the tree;
* `Opt` — the options, their names, and whether they take a value;
* `Level.options`, `Level.places` — what may stand at a level.
-/

namespace Latch.CommandLine

/-- The single commands. -/
inductive Verb where
  | status
  | lock
  | unlock
  | propsGet
  | propsSet
  | propsDelete
  | propsClear
  | configGet
  | configSet
  | configList
  | configReset
  | configPath
  | doctor
deriving DecidableEq, Repr

inductive Level where
  | top
  | props
  | config
  | verb (v : Verb)
deriving DecidableEq, Repr

inductive Opt where
  | format
  | quiet
  | database
  | user
  | tenant
  | feature
  | duration
  | indefinite
  | reasonCode
  | reason
  | name
  | help
  | version
deriving DecidableEq, Repr

namespace Opt

/-- The name after two dashes. -/
def long : Opt → String
  | format => "format"
  | quiet => "quiet"
  | database => "database"
  | user => "user"
  | tenant => "tenant"
  | feature => "feature"
  | duration => "duration-ms"
  | indefinite => "indefinite"
  | reasonCode => "reason-code"
  | reason => "reason"
  | name => "name"
  | help => "help"
  | version => "version"

/-- The letter after one dash. -/
def short? : Opt → Option Char
  | quiet => some 'q'
  | user => some 'u'
  | tenant => some 't'
  | feature => some 'f'
  | duration => some 'd'
  | help => some 'h'
  | version => some 'V'
  | format | database | indefinite | reasonCode | reason | name => none

def takesValue : Opt → Bool
  | quiet | indefinite | help | version => false
  | _ => true

/-- Whether a word such as `-5` counts as a value. -/
def takesNegative : Opt → Bool
  | tenant | duration => true
  | _ => false

/-- The options that may stand at any level. -/
def everywhere : List Opt := [format, quiet, database, help]

/-- The options that name a key. -/
def keyOptions : List Opt := [user, tenant, feature]

end Opt

/-- How many words a command takes besides its options. -/
inductive Places where
  | exactly (n : Nat)
  | atLeastOne
deriving DecidableEq, Repr

namespace Verb

def options : Verb → List Opt
  | status | unlock | propsSet | propsDelete | propsClear => Opt.keyOptions
  | lock => Opt.keyOptions ++ [.duration, .indefinite, .reasonCode, .reason]
  | propsGet => Opt.keyOptions ++ [.name]
  | configGet | configSet | configList | configReset | configPath | doctor => []

def places : Verb → Places
  | propsSet | propsDelete => .atLeastOne
  | configGet => .exactly 1
  | configSet => .exactly 2
  | _ => .exactly 0

end Verb

namespace Level

/-- The levels below one, by the words that lead to them. -/
def below : Level → List (String × Level)
  | top => [("status", .verb .status), ("lock", .verb .lock), ("unlock", .verb .unlock),
      ("props", .props), ("config", .config), ("doctor", .verb .doctor)]
  | props => [("get", .verb .propsGet), ("set", .verb .propsSet), ("delete", .verb .propsDelete),
      ("clear", .verb .propsClear)]
  | config => [("get", .verb .configGet), ("set", .verb .configSet), ("list", .verb .configList),
      ("reset", .verb .configReset), ("path", .verb .configPath)]
  | verb _ => []

def options : Level → List Opt
  | top => .version :: Opt.everywhere
  | props | config => Opt.everywhere
  | verb v => v.options ++ Opt.everywhere

def long? (level : Level) (name : String) : Option Opt := level.options.find? (·.long == name)

def short? (level : Level) (c : Char) : Option Opt := level.options.find? (·.short? == some c)

/-- Whether a word asks for help at a level: only levels that have others below them know it. -/
def asksForHelp (level : Level) (word : String) : Bool := word = "help" && !level.below.isEmpty

/-- Whether a level takes one more word after some. -/
def hasPlace (level : Level) (taken : Nat) : Bool :=
  match level with
  | verb v =>
    match v.places with
    | .exactly n => taken < n
    | .atLeastOne => true
  | _ => false

end Level

end Latch.CommandLine
