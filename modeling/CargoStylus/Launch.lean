import CargoStylus.Docker
import CargoStylus.VerifyRelay

/-!
# Processes in containers

`deploy` and `verify` without `--no-verify` do not do what they are for : they start a container,
in which `cargo` runs the program again with the command line that was put together from the
configuration (`Spawns`). Texts with spaces change what is read there, and some words are not read
at all. But the process in the container never starts another one, and if its words are read they
are of the same command, which it does by itself (`relays_once`).
-/

namespace CargoStylus

open Rust Rust.Interaction Rust.Interaction.Prog Cli

/-! ## The arguments of a process -/

/-- Programs that are no longer run as extensions. -/
def isDeprecatedExtension (subcommand : Text) : Bool :=
  subcommand = "cargo-stylus-check".toList || subcommand = "cargo-stylus-cgen".toList ||
    subcommand = "cargo-stylus-replay".toList

/-- How `main` goes on, or ends. -/
inductive MainEnd where
  | help
  | version
  /-- It becomes an extension. -/
  | extension (program : Text) (args : List Text)
  /-- `Opts::parse_from`, of the words behind the name of the program. -/
  | opts (words : List Text)

/-- An argument is from the system or from `cargo`. -/
def isStartingArgument (x : Text) : Bool :=
  x = "cargo".toList || x = "stylus".toList || containsText "cargo-stylus".toList x

/-- `main` : the arguments from the system and from `cargo` are dropped. -/
def main (commandExists : Text → Bool) (args : List Text) : MainEnd :=
  match args.dropWhile isStartingArgument with
  | [] => .help
  | arg :: rest =>
    if arg = "--help".toList ∨ arg = "-h".toList then .help
    else if arg = "--version".toList ∨ arg = "-V".toList then .version
    else
      let custom := "cargo-stylus-".toList ++ arg
      if commandExists custom && !isDeprecatedExtension custom then .extension custom (arg :: rest)
      -- the first argument is left out here, and the second one is taken for the program
      else .opts (args.drop 2)

theorem main_eq_opts {commandExists : Text → Bool} {args words : List Text}
    (h : main commandExists args = .opts words) : words = args.drop 2 := by
  unfold main at h
  split at h
  · cases h
  · dsimp only at h
    split_ifs at h
    exact (MainEnd.opts.inj h).symm

/-- The arguments of the program where `cargo` runs it. -/
def cargoArgs (bin : Text) (words : List Text) : List Text :=
  bin :: "stylus".toList :: words

/-- A command is read with all its words, unless there is an extension of its name. -/
theorem main_cargoArgs {commandExists : Text → Bool} {bin command : Text} {words : List Text}
    (hbin : isStartingArgument bin = true) (hcommand : isStartingArgument command = false)
    (hbuiltin : command ∉ ["--help".toList, "-h".toList, "--version".toList, "-V".toList])
    (hextension : commandExists ("cargo-stylus-".toList ++ command) = false) :
    main commandExists (cargoArgs bin (command :: words)) = .opts (command :: words) := by
  have hstylus : isStartingArgument "stylus".toList = true := by decide
  have hdrop : (cargoArgs bin (command :: words)).dropWhile isStartingArgument =
      command :: words := by
    rw [cargoArgs, List.dropWhile_cons_of_pos hbin, List.dropWhile_cons_of_pos hstylus,
      List.dropWhile_cons_of_neg (Bool.eq_false_iff.1 hcommand)]
  simp only [List.mem_cons, List.not_mem_nil, or_false, not_or] at hbuiltin
  obtain ⟨hhelp, hh, hversion, hV⟩ := hbuiltin
  rw [main, hdrop]
  dsimp only
  rw [if_neg (not_or.2 ⟨hhelp, hh⟩), if_neg (not_or.2 ⟨hversion, hV⟩), hextension]
  rfl

/-! ## The commands -/

/-- What a command line does. -/
inductive Launch where
  | deploy (cfg : DeployConfig)
  | verify (cfg : VerifyConfig)
  /-- `run_reproducible`. -/
  | container (cargoStylusVersion : Option Text) (commandLine : List Text)

section

variable (clap : ArgParser) (alloy : AlloyText)

/-- `deploy` is done here with `--no-verify`, and in a container without. -/
def launchDeploy (cfg : DeployConfig) : Launch :=
  if cfg.noVerify then .deploy cfg
  else .container cfg.cargoStylusVersion (deployCommands alloy cfg)

/-- `verify` is done here with `--no-verify`, and in a container without. -/
def launchVerify (cfg : VerifyConfig) : Launch :=
  if cfg.noVerify then .verify cfg else .container cfg.cargoStylusVersion (verifyCommands cfg)

/-- The program reads the command line as one of `deploy` or of `verify`. -/
inductive Launches (words : List Text) : Launch → Prop
  | deploy {cfg : DeployConfig} (hparse : parseDeploy clap alloy words = .ok cfg) :
      Launches words (launchDeploy alloy cfg)
  | verify {cfg : VerifyConfig} (hparse : parseVerify clap words = .ok cfg) :
      Launches words (launchVerify cfg)

/-- A run of the process with the arguments `args` has a container started, in which `cargo` runs
the program with the arguments `args'`. -/
inductive Spawns (args args' : List Text) : Prop
  | container {commandExists : Text → Bool} {words commandLine words' : List Text}
      {version : Option Text} {env : HostEnv} {log : DockerLog} {o : Outcome String Unit}
      {dir image bin : Text} {response : Except String Unit}
      (hmain : main commandExists args = .opts words)
      (hlaunch : Launches clap alloy words (.container version commandLine))
      (hrun : Runs (runReproducible env version commandLine) log o)
      (hspawn : ⟨.spawn (runArgs dir image (["cargo".toList, "stylus".toList] ++ words')),
        response⟩ ∈ log)
      (hargs : args' = cargoArgs bin words')

end

variable {clap : ArgParser} {alloy : AlloyText} {words commandLine args args' : List Text}
  {version : Option Text}

/-! ## What is started -/

/-- A container is started with the command line of a configuration that was read. -/
theorem Launches.container_cases (h : Launches clap alloy words (.container version commandLine)) :
    (∃ cfg, parseDeploy clap alloy words = .ok cfg ∧ cfg.noVerify = false ∧
        commandLine = deployCommands alloy cfg) ∨
      ∃ cfg, parseVerify clap words = .ok cfg ∧ cfg.noVerify = false ∧
        commandLine = verifyCommands cfg := by
  generalize hlaunch : Launch.container version commandLine = launch at h
  cases h with
  | @deploy cfg hparse =>
    unfold launchDeploy at hlaunch
    split_ifs at hlaunch with hverify
    obtain ⟨-, rfl⟩ := Launch.container.inj hlaunch
    exact .inl ⟨cfg, hparse, Bool.eq_false_iff.2 hverify, rfl⟩
  | @verify cfg hparse =>
    unfold launchVerify at hlaunch
    split_ifs at hlaunch with hverify
    obtain ⟨-, rfl⟩ := Launch.container.inj hlaunch
    exact .inr ⟨cfg, hparse, Bool.eq_false_iff.2 hverify, rfl⟩

/-- The process in the container has the command line that was put together. -/
theorem Spawns.words_eq (h : Spawns clap alloy args args') : ∃ version,
    Launches clap alloy (args.drop 2) (.container version (args'.drop 2)) := by
  obtain @⟨_, words, commandLine, words', version, env, log, o, dir, image, bin, response, hmain,
    hlaunch, hrun, hspawn, rfl⟩ := h
  obtain rfl := main_eq_opts hmain
  let c : ReproducibleRun := ⟨env, version, commandLine⟩
  obtain ⟨channel, -, hasks⟩ := ReproducibleRun.asks_of_runs (c := c) hrun _ hspawn
  rcases hasks.spawn_eq with hbuild | ⟨dir', hdocker⟩
  · exact absurd hbuild (runArgs_ne_buildImageArgs _ _ _ _)
  · obtain rfl := List.append_cancel_left (runArgs_inj hdocker).2
    exact ⟨version, hlaunch⟩

theorem noVerify_of_deployCommands (hflag : clap.FindsFirstFlag) {cfg cfg' : DeployConfig}
    (h : parseDeploy clap alloy (deployCommands alloy cfg) = .ok cfg') : cfg'.noVerify = true := by
  rw [deployCommands, List.cons_append, parseDeploy, if_pos (Or.inl rfl)] at h
  obtain ⟨m, hm, hread⟩ := Outcome.bind_eq_ok.1 h
  have hfound : m.flag "no-verify".toList = true :=
    hflag (by simp [deployCommand, -String.reduceToList]) (Outcome.ofExcept_eq_ok.1 hm)
  obtain ⟨_, -, h⟩ := Outcome.bind_eq_ok.1 hread
  obtain ⟨_, -, h⟩ := Outcome.bind_eq_ok.1 h
  obtain ⟨_, -, h⟩ := Outcome.bind_eq_ok.1 h
  obtain ⟨_, -, h⟩ := Outcome.bind_eq_ok.1 h
  obtain ⟨_, -, h⟩ := Outcome.bind_eq_ok.1 h
  obtain rfl := Outcome.ok.inj h
  exact hfound

theorem noVerify_of_verifyCommands (hflag : clap.FindsFirstFlag) {cfg cfg' : VerifyConfig}
    (h : parseVerify clap (verifyCommands cfg) = .ok cfg') : cfg'.noVerify = true := by
  rw [verifyCommands, List.cons_append, parseVerify, if_pos (Or.inl rfl)] at h
  obtain ⟨m, hm, hread⟩ := Outcome.bind_eq_ok.1 h
  have hfound : m.flag "no-verify".toList = true :=
    hflag (by simp [verifyCommand, -String.reduceToList]) (Outcome.ofExcept_eq_ok.1 hm)
  obtain ⟨_, -, h⟩ := Outcome.bind_eq_ok.1 hread
  obtain rfl := Outcome.ok.inj h
  exact hfound

theorem parseVerify_deployCommands {cfg : DeployConfig} {cfg' : VerifyConfig} :
    parseVerify clap (deployCommands alloy cfg) ≠ .ok cfg' := by
  have hother : ¬("deploy".toList = "verify".toList ∨ "deploy".toList = "v".toList) := by decide
  rw [deployCommands, List.cons_append, parseVerify, if_neg hother]
  exact fun h => Outcome.not_isOk_err _ ⟨cfg', h⟩

theorem parseDeploy_verifyCommands {cfg : VerifyConfig} {cfg' : DeployConfig} :
    parseDeploy clap alloy (verifyCommands cfg) ≠ .ok cfg' := by
  have hother : ¬("verify".toList = "deploy".toList ∨ "verify".toList = "d".toList) := by decide
  rw [verifyCommands, List.cons_append, parseDeploy, if_neg hother]
  exact fun h => Outcome.not_isOk_err _ ⟨cfg', h⟩

/-- The command is the one of the process that started the container, and is done there. -/
def DoneFor (clap : ArgParser) (alloy : AlloyText) (words : List Text) (launch : Launch) : Prop :=
  (∃ cfg cfg', parseDeploy clap alloy words = .ok cfg ∧ launch = .deploy cfg') ∨
    ∃ cfg cfg', parseVerify clap words = .ok cfg ∧ launch = .verify cfg'

theorem Spawns.doneFor (hflag : clap.FindsFirstFlag) (h : Spawns clap alloy args args')
    {launch : Launch} (hlaunch : Launches clap alloy (args'.drop 2) launch) :
    DoneFor clap alloy (args.drop 2) launch := by
  obtain ⟨version, hcontainer⟩ := h.words_eq
  generalize args'.drop 2 = words' at hcontainer hlaunch
  rcases hcontainer.container_cases with ⟨cfg, hparse, -, rfl⟩ | ⟨cfg, hparse, -, rfl⟩
  · cases hlaunch with
    | @deploy cfg' hparse' =>
      have hlocal : launchDeploy alloy cfg' = .deploy cfg' :=
        if_pos (noVerify_of_deployCommands hflag hparse')
      exact .inl ⟨cfg, cfg', hparse, hlocal⟩
    | verify hparse' => exact absurd hparse' parseVerify_deployCommands
  · cases hlaunch with
    | deploy hparse' => exact absurd hparse' parseDeploy_verifyCommands
    | @verify cfg' hparse' =>
      have hlocal : launchVerify cfg' = .verify cfg' :=
        if_pos (noVerify_of_verifyCommands hflag hparse')
      exact .inr ⟨cfg, cfg', hparse, hlocal⟩

/-- **A container is started once**, whatever the texts of the configuration are and whatever
Docker does : the process in it starts no container. If its words are read, they are of the same
command, which is done there. -/
theorem relays_once (hflag : clap.FindsFirstFlag) (h : Spawns clap alloy args args') :
    (∀ args'', ¬Spawns clap alloy args' args'') ∧
      ∀ commandExists words launch, main commandExists args' = .opts words →
        Launches clap alloy words launch → DoneFor clap alloy (args.drop 2) launch := by
  refine ⟨fun args'' h' => ?_, fun commandExists words launch hmain hlaunch => ?_⟩
  · obtain ⟨version, hlaunch⟩ := h'.words_eq
    rcases h.doneFor hflag hlaunch with ⟨_, _, -, h⟩ | ⟨_, _, -, h⟩
    · cases h
    · cases h
  · obtain rfl := main_eq_opts hmain
    exact h.doneFor hflag hlaunch

/-- A verification with the defaults. -/
def defaultVerify : VerifyConfig :=
  { twoPatterns with commonCfg := { twoPatterns.commonCfg with sourceFilesForProjectHash := [] } }

/-- The words of a verification. -/
def verifyWords : List Text :=
  ["verify".toList, "--deployment-tx=0x01".toList]

theorem parseVerify_verifyWords : parseVerify longOptions verifyWords = .ok defaultVerify := by
  decide

/-- Where `cargo` finds the program. -/
def cargoStylus : Text :=
  "/root/.cargo/bin/cargo-stylus".toList

theorem main_verify (words : List Text) :
    main (fun _ => false) (cargoArgs cargoStylus ("verify".toList :: words)) =
      .opts ("verify".toList :: words) :=
  main_cargoArgs (by decide) (by decide) (by decide) rfl

theorem spawns_verifyWords : Spawns longOptions hexText (cargoArgs cargoStylus verifyWords)
    (cargoArgs cargoStylus (verifyCommands defaultVerify)) := by
  have hlaunch : Launches longOptions hexText verifyWords
      (.container none (verifyCommands defaultVerify)) := .verify parseVerify_verifyWords
  exact .container (main_verify _) hlaunch (freshLog_runs _)
    (List.mem_of_mem_drop (i := 4) List.mem_cons_self) rfl

theorem relays_once_verifyWords :
    (∀ args, ¬Spawns longOptions hexText
      (cargoArgs cargoStylus (verifyCommands defaultVerify)) args) ∧
    DoneFor longOptions hexText verifyWords (.verify { defaultVerify with noVerify := true }) := by
  have honce := relays_once longOptions_findsFirstFlag spawns_verifyWords
  have hread : parseVerify longOptions (verifyCommands defaultVerify) =
      .ok { defaultVerify with noVerify := true } := by decide
  exact ⟨honce.1, honce.2 (fun _ => false) _ _ (main_verify _) (.verify hread)⟩

end CargoStylus
