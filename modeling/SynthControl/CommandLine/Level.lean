/-!
# Commands and options

The commands form levels: the program, its commands, and the actions of the command for the configuration
file.  Each level has its options.

* `Level` — the levels; `commands`, `settings`, `required`;
* `Setting` — the options with a value, with their long and short names;
* `Switch` — any option; `Level.long?`, `Level.short?` — the option of a level by name;
* `Level.help` — a short help text.

Main statement: `config_mem_settings` (the option for the configuration file is known everywhere).
-/

namespace SynthControl.CommandLine

/-- Where on the command line one is. -/
inductive Level where
  /-- Right behind the name of the program. -/
  | program
  | play
  | render
  | operations
  | configuration
  /-- Write a configuration file to start from. -/
  | initFile
  /-- Tell where the configuration file is. -/
  | tellPath
  | showAll
  deriving DecidableEq, Repr

/-- An option with a value. -/
inductive Setting where
  | config
  /-- Seconds. -/
  | duration
  /-- Hertz. -/
  | frequency
  | output
  deriving DecidableEq, Repr

/-- An option. -/
inductive Switch where
  | help
  | version
  | setting (s : Setting)
  deriving DecidableEq, Repr

/-- The long name of an option with a value. -/
def Setting.long : Setting → String
  | config => "config"
  | duration => "duration"
  | frequency => "frequency"
  | output => "output"

/-- The short name of an option with a value. -/
def Setting.short? : Setting → Option Char
  | config => none
  | duration => some 'd'
  | frequency => some 'f'
  | output => some 'o'

namespace Level

/-- The commands of a level. -/
def commands : Level → List (String × Level)
  | program => [("play", play), ("render", render), ("ops", operations), ("config", configuration)]
  | configuration => [("init", initFile), ("path", tellPath), ("show", showAll)]
  | _ => []

/-- The options with a value of a level. -/
def settings : Level → List Setting
  | play | render => [.duration, .frequency, .output, .config]
  | _ => [.config]

/-- The options that a level needs. -/
def required : Level → List Setting
  | render => [.duration, .output]
  | _ => []

/-- The option for the configuration file is known everywhere. -/
theorem config_mem_settings (l : Level) : Setting.config ∈ l.settings := by cases l <;> decide

/-- The option of a level with a long name. -/
def long? (l : Level) (name : String) : Option Switch :=
  if name = "help" then some .help
  else if name = "version" ∧ l = program then some .version
  else (l.settings.find? fun s => s.long == name).map .setting

/-- The option of a level with a short name. -/
def short? (l : Level) (c : Char) : Option Switch :=
  if c = 'h' then some .help
  else if c = 'V' ∧ l = program then some .version
  else (l.settings.find? fun s => s.short? == some c).map .setting

/-- What a level is for. -/
def about : Level → String
  | program => "Run and render performances against the reference engine"
  | play => "Run a realtime performance (Ctrl+C stops it)"
  | render => "Render offline to a WAV file"
  | operations => "List the engine operations"
  | configuration => "Manage the configuration file"
  | initFile => "Write a commented default config file"
  | tellPath => "Print the config file location"
  | showAll => "Print the effective configuration"

/-- How a level is used. -/
def usage : Level → String
  | program => "rtperf [OPTIONS] <COMMAND>"
  | play => "rtperf play [OPTIONS]"
  | render => "rtperf render [OPTIONS] --duration <DURATION> --output <FILE>"
  | operations => "rtperf ops [OPTIONS]"
  | configuration => "rtperf config [OPTIONS] <COMMAND>"
  | initFile => "rtperf config init [OPTIONS]"
  | tellPath => "rtperf config path [OPTIONS]"
  | showAll => "rtperf config show [OPTIONS]"

/-- A short help text. -/
def help (l : Level) : String :=
  let commands := l.commands.map fun p => "  " ++ p.1 ++ ": " ++ p.2.about ++ "\n"
  l.about ++ "\n\nUsage: " ++ l.usage ++ "\n"
    ++ if commands.isEmpty then "" else "\nCommands:\n" ++ String.join commands

end Level
end SynthControl.CommandLine
