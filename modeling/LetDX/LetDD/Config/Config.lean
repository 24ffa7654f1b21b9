import LetDX.LetDD.Config.Parser

/-! # The configuration of the proxy

It is collected from the command line and the environment. An option that does
not parse ends the collection at once, before anything is read from the
environment.
-/

namespace LetDX.LetDD

/-- A permission is one bit. -/
abbrev Permission := U8

def permissionNone : Permission := 0
def permissionRead : Permission := 1 <<< 0
def permissionWrite : Permission := 1 <<< 1

/-- The flags as they are stored, or their defaults. -/
structure CommandLine where
  connect : String := "localhost:55543"
  serve : String := "localhost:5543"
  contextTimeout : Duration := 5000000000
  gracefulTimeout : Duration := 5000000000
  limit : BitVec 64 := 1048576
  ratelimit : List U8 := []
  supervisor : List U8 := []
  deriving DecidableEq, Repr

/-- The two variables `LETDD_TOKEN` and `LETDD_PERMISSIONS`. -/
structure Environment where
  token : Option (List U8) := none
  permissions : String := ""
  deriving DecidableEq, Repr

structure Config where
  connectAddress : String := ""
  serverAddress : String := ""
  contextTimeout : Duration := 0
  gracefulTimeout : Duration := 0
  bodyLimit : BitVec 64 := 0
  rateLimiter : Option RateLimiterMemoryStoreConfig := none
  supervisor : Option Supervisor := none
  serverToken : List U8 := []
  serverPerms : Permission := permissionNone
  deriving DecidableEq, Repr

/-- `strings.ToLower`, as far as the result is in ASCII. Two letters outside of
it have their lower case there. -/
def toLower (value : String) : String :=
  value.map fun letter =>
    if letter = Char.ofNat 0x130 then 'i'
    else if letter = Char.ofNat 0x212A then 'k'
    else letter.toLower

namespace Config

def collectToken (c : Config) (environment : Environment) : Config :=
  match environment.token with
  | some token => { c with serverToken := if token ≠ [] then token else [] }
  | none => { c with serverToken := [] }

def collectPermissions (c : Config) (environment : Environment) : Config :=
  let permissions := toLower environment.permissions
  if permissions = "read" then { c with serverPerms := permissionRead }
  else if permissions = "write" then { c with serverPerms := permissionWrite }
  else if permissions = "read,write" ∨ permissions = "write,read" then
    { c with serverPerms := permissionRead ||| permissionWrite }
  else { c with serverPerms := permissionNone }

/-- What is read once all options are parsed. -/
def collectEnvironment (c : Config) (environment : Environment) : Config :=
  (c.collectToken environment).collectPermissions environment

/-- What the flags are stored to directly. -/
def collectFlags (c : Config) (commandLine : CommandLine) : Config :=
  { c with
    connectAddress := commandLine.connect
    serverAddress := commandLine.serve
    contextTimeout := commandLine.contextTimeout
    gracefulTimeout := commandLine.gracefulTimeout
    bodyLimit := commandLine.limit }

/-- Parse an option that is given, and store its value. -/
def parseOption {α : Type} (c : Config) (parse : List U8 → Parsing α) (option : List U8)
    (store : α → Config) : Parsing Config :=
  if option ≠ [] then return store (← parse option)
  else return c

/-- The configuration that `Collect` leaves, with its error if it returns one;
nothing after a panic. -/
def collect (c : Config) (commandLine : CommandLine) (environment : Environment) :
    Option (Config × Option ParserError) :=
  let c := c.collectFlags commandLine
  let parsed := c.parseOption parseRateLimiter commandLine.ratelimit fun ratelimiter =>
    { c with rateLimiter := some ratelimiter }
  match parsed.run with
  | none => none
  | some (.error error) => some (c, some error)
  | some (.ok c) =>
      let parsed := c.parseOption parseSupervisor commandLine.supervisor fun observer =>
        { c with supervisor := some observer }
      match parsed.run with
      | none => none
      | some (.error error) => some (c, some error)
      | some (.ok c) => some (c.collectEnvironment environment, none)

/-- `subtle.ConstantTimeCompare` -/
def constantTimeCompare (x y : List U8) : Nat :=
  if x = y then 1 else 0

def isMatches (c : Config) (token : List U8) : Bool :=
  if c.serverToken.length = 0 then false
  else if c.serverToken.length ≠ token.length then false
  else constantTimeCompare c.serverToken token = 1

def isPermitted (c : Config) (permission : Permission) : Bool :=
  c.serverPerms &&& permission ≠ 0

end Config

/-- One of the two options that `Collect` parses itself is in error. -/
def CommandLine.Invalid (commandLine : CommandLine) : Prop :=
  (∃ error, (parseRateLimiter commandLine.ratelimit).run = some (.error error)) ∨
    ∃ error, (parseSupervisor commandLine.supervisor).run = some (.error error)

/-- What `Collect` does to an empty configuration. -/
inductive Collected (commandLine : CommandLine) (environment : Environment) :
    Option (Config × Option ParserError) → Prop
  | panicked (valid : ¬commandLine.Invalid) : Collected commandLine environment none
  | failed {config : Config} {error : ParserError} (invalid : commandLine.Invalid)
      (token : config.serverToken = []) :
      Collected commandLine environment (some (config, some error))
  | done {config : Config} (valid : ¬commandLine.Invalid)
      (token : config.serverToken = environment.token.getD []) :
      Collected commandLine environment (some (config, none))

namespace Config

section Options

variable {α : Type} {c : Config} {parse : List U8 → Parsing α} {option : List U8}
  {store : α → Config}

/-- An option that is not given counts as one that parses. -/
theorem parseOption_run (hempty : ∃ value, (parse []).run = some (.ok value)) :
    (c.parseOption parse option store).run = (parse option).run.map fun parsed =>
      parsed.map fun value => if option = [] then c else store value := by
  by_cases hoption : option = []
  · obtain ⟨value, hempty⟩ := hempty
    subst hoption
    rw [hempty]
    rfl
  · rw [parseOption, if_pos hoption]
    cases hparse : (parse option).run with
    | none => simp [hparse]
    | some parsed => cases parsed <;> simp [hparse, Except.map, hoption]

end Options

theorem collectPermissions_serverToken (c : Config) (environment : Environment) :
    (c.collectPermissions environment).serverToken = c.serverToken := by
  unfold collectPermissions
  dsimp only
  split
  · rfl
  · split
    · rfl
    · split <;> rfl

theorem collectEnvironment_serverToken (c : Config) (environment : Environment) :
    (c.collectEnvironment environment).serverToken = environment.token.getD [] := by
  rw [collectEnvironment, collectPermissions_serverToken, collectToken]
  cases environment.token with
  | none => rfl
  | some token =>
      by_cases htoken : token = []
      · simp [htoken]
      · simp [htoken]

theorem collected (commandLine : CommandLine) (environment : Environment) :
    Collected commandLine environment (collect {} commandLine environment) := by
  unfold collect
  dsimp only
  rw [parseOption_run ⟨_, rfl⟩]
  cases hratelimit : (parseRateLimiter commandLine.ratelimit).run with
  | none => exact (parseRateLimiter_returns _ hratelimit).elim
  | some parsed =>
      cases parsed with
      | error error => exact .failed (.inl ⟨error, hratelimit⟩) rfl
      | ok ratelimiter =>
          have hvalid (hsupervisor : ∀ error,
              (parseSupervisor commandLine.supervisor).run ≠ some (.error error)) :
              ¬commandLine.Invalid := by
            rintro (⟨error, herror⟩ | ⟨error, herror⟩)
            · nomatch hratelimit.symm.trans herror
            · exact hsupervisor error herror
          dsimp only [Option.map_some, Except.map]
          rw [parseOption_run ⟨_, rfl⟩]
          cases hsupervisor : (parseSupervisor commandLine.supervisor).run with
          | none => exact .panicked (hvalid fun _ heq => nomatch hsupervisor.symm.trans heq)
          | some parsed =>
              cases parsed with
              | error error =>
                  refine .failed (.inr ⟨error, hsupervisor⟩) ?_
                  split <;> rfl
              | ok observer =>
                  refine .done (hvalid fun _ heq => nomatch hsupervisor.symm.trans heq) ?_
                  exact collectEnvironment_serverToken _ _

theorem isMatches_iff {c : Config} {token : List U8} :
    c.isMatches token = true ↔ c.serverToken ≠ [] ∧ token = c.serverToken := by
  rw [isMatches, constantTimeCompare]
  by_cases hempty : c.serverToken = []
  · simp [hempty]
  · by_cases hsame : c.serverToken = token
    · subst hsame
      simp [hempty]
    · simp [hempty, hsame, Ne.symm hsame]

end Config

end LetDX.LetDD
