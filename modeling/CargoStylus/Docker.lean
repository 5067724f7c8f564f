import CargoStylus.Rust.Shared
import CargoStylus.Toolchain
import Mathlib.Data.Bool.AllAny

/-!
# Running a command in Docker

A command that is to be reproducible runs in a container. Its image is built from a Dockerfile
for one version of `cargo stylus` and one channel, unless there is an image of that name already.

Docker keeps the images, and any number of commands use it at the same time (`dockerService`).
Each image is built from the Dockerfile that its name is for, whatever the order of the requests
and whether or not builds fail, so a container runs in the image of its own version and channel
if it runs in any (`containers_intended`). An image that is there is not built again
(`cached_not_built`).

The channel is from the toolchain file, and has only characters that channels have. So Docker's
parser, of which it is only known how it reads plain lines (`DockerfileParser`), reads the same
instructions for every toolchain file (`dockerfile_instructions`).
-/

namespace CargoStylus

open Rust Rust.Interaction Rust.Interaction.Prog

/-! ## The requests -/

/-- `std::process::Output`. -/
structure Output where
  success : Bool
  stdout : Bytes
  stderr : Bytes

/-- What is asked of `docker`, which is run with some arguments. -/
inductive DockerRequest where
  /-- Run it to its end. -/
  | output (args : List Text)
  | spawn (args : List Text)
  /-- Write to the standard input of the one that was spawned with these arguments. -/
  | writeStdin (args : List Text) (text : Text)
  | wait (args : List Text)

/-- What a request is responded to by. -/
abbrev DockerRequest.Response : DockerRequest → Type
  | output _ => Output
  | _ => Unit

/-- A command, as its requests to Docker. -/
abbrev Docker (α : Type) := Prog DockerRequest DockerRequest.Response String α

/-- The requests of a command, with the responses to them. -/
abbrev DockerLog := Log DockerRequest DockerRequest.Response String

/-! ## Images and containers -/

/-- The image for a version of `cargo stylus` and a channel. -/
def imageName (cargoStylusVersion toolchainVersion : Text) : Text :=
  "cargo-stylus-base-".toList ++ cargoStylusVersion ++ "-toolchain-".toList ++ toolchainVersion

/-- `docker images`, for one name. -/
def imagesArgs (imageName : Text) : List Text :=
  ["images".toList, imageName]

/-- `docker build` of a Dockerfile from the standard input. -/
def buildImageArgs (imageName : Text) : List Text :=
  ["build".toList, "-t".toList, imageName, ".".toList, "-f-".toList]

/-- `docker run` of a command line with `dir` as the source directory. -/
def runArgs (dir imageName : Text) (commandLine : List Text) : List Text :=
  ["run".toList, "--network".toList, "host".toList, "-w".toList, "/source".toList, "-v".toList,
    dir ++ ":/source".toList, imageName] ++ commandLine

/-- The lines of the text that an image is built from. -/
def dockerfileLines (cargoStylusVersion toolchainVersion : Text) : List Text :=
  ["ARG BUILD_PLATFORM=linux/amd64".toList,
    "FROM --platform=$\x7bBUILD_PLATFORM\x7d offchainlabs/cargo-stylus-base:".toList ++
      cargoStylusVersion ++ " AS base".toList,
    "RUN rustup toolchain install ".toList ++ toolchainVersion ++
      "-x86_64-unknown-linux-gnu".toList,
    "RUN rustup default ".toList ++ toolchainVersion ++ "-x86_64-unknown-linux-gnu".toList,
    "RUN rustup target add wasm32-unknown-unknown".toList,
    "RUN rustup component add rust-src --toolchain ".toList ++ toolchainVersion ++
      "-x86_64-unknown-linux-gnu".toList]

/-- The text, all but the first line of which is indented. -/
def dockerfile (cargoStylusVersion toolchainVersion : Text) : Text :=
  join ('\n' :: List.replicate 12 ' ') (dockerfileLines cargoStylusVersion toolchainVersion) ++
    '\n' :: List.replicate 8 ' '

/-- What a command reads of its host. -/
structure HostEnv where
  osType : Option Text
  osRelease : Option Text
  toolchain : ToolchainLibs
  /-- The contents of `rust-toolchain.toml`. -/
  toolchainFile : Except String Text
  currentDir : Except String PathBuf
  /-- The error of `str::from_utf8`. -/
  showUtf8Error : Bytes → String

section

variable (env : HostEnv)

/-- Whether Docker lists the image, in a line below the heading. -/
def imageExists (imageName : Text) : Docker Bool := do
  let output ← askWith (DockerRequest.output (imagesArgs imageName)) fun output =>
    .mapErr ("failed to execute Docker command: " ++ ·) (.ofExcept output)
  if output.success then
    return decide (1 < output.stdout.count 10)
  else
    match fromUtf8 output.stderr with
    | none =>
      done (.err ("failed to read Docker command stderr: " ++ env.showUtf8Error output.stderr))
    | some stderr =>
      if containsText "Cannot connect to the Docker daemon".toList stderr then
        done (.err "Docker not running")
      else done (.err (String.ofList stderr))

/-- Build the image, unless there is one. -/
def createImage (cargoStylusVersion toolchainVersion : Text) : Docker Unit := do
  let imageName := imageName cargoStylusVersion toolchainVersion
  let exists_ ← imageExists env imageName
  if exists_ then
    return ()
  else
    askWith (DockerRequest.spawn (buildImageArgs imageName)) fun child =>
      .mapErr ("failed to execute Docker command: " ++ ·) (.ofExcept child)
    ask (DockerRequest.writeStdin (buildImageArgs imageName)
      (dockerfile cargoStylusVersion toolchainVersion))
    -- the status of the build is not looked at
    askWith (DockerRequest.wait (buildImageArgs imageName)) fun status =>
      .mapErr ("wait failed: " ++ ·) (.ofExcept status)

/-- Run the command line in a container that shares the current directory. -/
def runInDockerContainer (cargoStylusVersion toolchainVersion : Text) (commandLine : List Text) :
    Docker Unit := do
  let imageName := imageName cargoStylusVersion toolchainVersion
  let dir ← done (.mapErr ("failed to find current directory: " ++ ·) (.ofExcept env.currentDir))
  let dir ← done (.unwrap "called `Option::unwrap()` on a `None` value" (fromUtf8 dir))
  let args := runArgs dir imageName commandLine
  askWith (DockerRequest.spawn args) fun child =>
    .mapErr ("failed to execute Docker command: " ++ ·) (.ofExcept child)
  askWith (DockerRequest.wait args) fun status =>
    .mapErr ("wait failed: " ++ ·) (.ofExcept status)

/-- Windows hosts have to be WSL, and others are fine if their type is known. -/
def verifyValidHost : Outcome String Unit :=
  match env.osType with
  | none => .err "unable to determine host OS type"
  | some osType =>
    if osType = "Windows".toList then
      -- Check for WSL environment
      match env.osRelease with
      | none => .err "unable to determine kernel version"
      | some kernelVersion =>
        if containsText "microsoft".toList kernelVersion ||
            containsText "WSL".toList kernelVersion then .ok ()
        else .err ("Reproducible cargo stylus commands on Windows are only supported in " ++
          "Windows Linux Subsystem (WSL). Please install within WSL. To instead opt out of " ++
          "reproducible builds, add the --no-verify flag to your commands.")
    else .ok ()

/-- `CARGO_PKG_VERSION`. -/
def cargoPkgVersion : Text :=
  "0.6.3".toList

/-- Run the command line in a container for the version and the project's channel. -/
def runReproducible (cargoStylusVersion : Option Text) (commandLine : List Text) : Docker Unit := do
  done (verifyValidHost env)
  let toolchainChannel ← done (extractToolchainChannel env.toolchain env.toolchainFile)
  let cargoStylusVersion := cargoStylusVersion.getD cargoPkgVersion
  let command := ["cargo".toList, "stylus".toList] ++ commandLine
  createImage env cargoStylusVersion toolchainChannel
  runInDockerContainer env cargoStylusVersion toolchainChannel command

end

/-! ## What Docker keeps -/

/-- A container, with the Dockerfile that its image was built from if there was an image of that
name. -/
structure Container where
  args : List Text
  builtFrom : Option Text

/-- The images by their names, the builds that have not ended, and the containers that were
started. -/
structure DockerState where
  images : Text → Option Text
  building : List (Text × Text)
  containers : List Container

/-- Docker without any images. -/
def DockerState.empty : DockerState where
  images _ := none
  building := []
  containers := []

/-- Listing the images of a name prints a line for each, behind a header. -/
def Lists (s : DockerState) (imageName : Text) (output : Output) : Prop :=
  output.success = true → (1 < output.stdout.count 10 ↔ (s.images imageName).isSome)

/-- What a response means. A request that fails changes nothing. -/
inductive DockerResponds (s : DockerState) :
    (Σ r : DockerRequest, Except String r.Response) → DockerState → Prop
  | images {imageName : Text} {output : Output} (h : Lists s imageName output) :
      DockerResponds s ⟨.output (imagesArgs imageName), .ok output⟩ s
  | fails {r : DockerRequest} {e : String} : DockerResponds s ⟨r, .error e⟩ s
  | spawnBuild {imageName : Text} :
      DockerResponds s ⟨.spawn (buildImageArgs imageName), .ok ()⟩ s
  /-- The build goes on once it has the Dockerfile. -/
  | writeDockerfile {imageName dockerfile : Text} :
      DockerResponds s ⟨.writeStdin (buildImageArgs imageName) dockerfile, .ok ()⟩
        { s with building := (imageName, dockerfile) :: s.building }
  | run {dir imageName : Text} {commandLine : List Text} :
      DockerResponds s ⟨.spawn (runArgs dir imageName commandLine), .ok ()⟩
        { s with containers :=
            ⟨runArgs dir imageName commandLine, s.images imageName⟩ :: s.containers }
  | wait {args : List Text} : DockerResponds s ⟨.wait args, .ok ()⟩ s

/-- A build ends, with an image of its name or without. -/
inductive DockerWorks (s : DockerState) : DockerState → Prop
  | built {imageName dockerfile : Text} {before after : List (Text × Text)}
      (h : s.building = before ++ (imageName, dockerfile) :: after) :
      DockerWorks s { s with images := Function.update s.images imageName (some dockerfile),
                             building := before ++ after }
  | failed {imageName dockerfile : Text} {before after : List (Text × Text)}
      (h : s.building = before ++ (imageName, dockerfile) :: after) :
      DockerWorks s { s with building := before ++ after }

/-- Docker, as the service that all commands share. -/
def dockerService : Service DockerRequest DockerRequest.Response String DockerState where
  responds := DockerResponds
  works := DockerWorks

/-! ## What a command asks for -/

/-- A call of `run_reproducible`. -/
structure ReproducibleRun where
  env : HostEnv
  cargoStylusVersion : Option Text
  commandLine : List Text

namespace ReproducibleRun

/-- The requests of the call. -/
def run (c : ReproducibleRun) : Docker Unit :=
  runReproducible c.env c.cargoStylusVersion c.commandLine

/-- The version that is asked for, or else the one of this program. -/
def version (c : ReproducibleRun) : Text :=
  c.cargoStylusVersion.getD cargoPkgVersion

/-- The requests of a command whose channel is `channel`. -/
inductive Asks (c : ReproducibleRun) (channel : Text) : DockerRequest → Prop
  | images : Asks c channel (.output (imagesArgs (imageName c.version channel)))
  | spawnBuild : Asks c channel (.spawn (buildImageArgs (imageName c.version channel)))
  | writeDockerfile : Asks c channel (.writeStdin (buildImageArgs (imageName c.version channel))
      (dockerfile c.version channel))
  | run {dir : Text} : Asks c channel (.spawn (runArgs dir (imageName c.version channel)
      (["cargo".toList, "stylus".toList] ++ c.commandLine)))
  | wait {args : List Text} : Asks c channel (.wait args)

/-- The channel of the toolchain file. -/
def HasChannel (c : ReproducibleRun) (channel : Text) : Prop :=
  extractToolchainChannel c.env.toolchain c.env.toolchainFile = .ok channel

/-- The request is not one of the command. -/
def Foreign (c : ReproducibleRun) (r : DockerRequest) : Prop :=
  ¬∃ channel, c.HasChannel channel ∧ c.Asks channel r

variable {c : ReproducibleRun} {channel : Text}

theorem Asks.not_foreign {r : DockerRequest} (h : c.Asks channel r)
    (hchannel : c.HasChannel channel) : ¬c.Foreign r :=
  not_not.2 ⟨channel, hchannel, h⟩

theorem avoids_imageExists (hchannel : c.HasChannel channel) :
    Avoids c.Foreign (imageExists c.env (imageName c.version channel)) := by
  refine (avoids_askWith (Asks.images.not_foreign hchannel) _).bind fun output => ?_
  split_ifs
  · exact avoids_done (.ok _)
  · rcases fromUtf8 output.stderr with _ | stderr
    · exact avoids_done _
    · dsimp only
      split_ifs
      · exact avoids_done _
      · exact avoids_done _

theorem avoids_createImage (hchannel : c.HasChannel channel) :
    Avoids c.Foreign (createImage c.env c.version channel) := by
  refine (avoids_imageExists hchannel).bind fun exists_ => ?_
  split_ifs
  · exact avoids_done (.ok ())
  · refine (avoids_askWith (Asks.spawnBuild.not_foreign hchannel) _).bind fun _ => ?_
    refine (avoids_ask (Asks.writeDockerfile.not_foreign hchannel)).bind fun _ => ?_
    exact avoids_askWith (Asks.wait.not_foreign hchannel) _

theorem avoids_runInDockerContainer (hchannel : c.HasChannel channel) :
    Avoids c.Foreign (runInDockerContainer c.env c.version channel
      (["cargo".toList, "stylus".toList] ++ c.commandLine)) := by
  refine (avoids_done _).bind fun dir => (avoids_done _).bind fun dir => ?_
  refine (avoids_askWith (Asks.run.not_foreign hchannel) _).bind fun _ => ?_
  exact avoids_askWith (Asks.wait.not_foreign hchannel) _

/-- Every request of every run is the command's own. -/
theorem asks_of_runs {log : DockerLog} {o : Outcome String Unit} (h : Runs c.run log o) :
    ∀ entry ∈ log, ∃ channel, c.HasChannel channel ∧ c.Asks channel entry.1 := by
  have havoids : Avoids c.Foreign c.run := by
    refine (avoids_done _).bind fun _ => (avoids_done _).bind_of_returns returns_done ?_
    intro channel hchannel
    exact (avoids_createImage hchannel).bind fun _ => avoids_runInDockerContainer hchannel
  exact fun entry hentry => not_not.1 (wp_iff_runs.1 havoids log o h entry hentry)

end ReproducibleRun

/-! ## Images are what their names say -/

/-- A version that does not have the word that separates it from the channel. -/
def PlainVersion (version : Text) : Prop :=
  ¬"-toolchain".toList <:+: version

/-- The Dockerfile is the one that the name is for. -/
def Intended (name text : Text) : Prop :=
  ∃ version channel, PlainVersion version ∧ name = imageName version channel ∧
    text = dockerfile version channel

theorem toolchainWord : "-toolchain".toList = '-' :: "toolchain".toList := by
  simp

/-- The name of an image has the version and the channel in it. -/
theorem imageName_eq (version channel : Text) : imageName version channel =
    "cargo-stylus-base-".toList ++ (version ++ ("-toolchain".toList ++ '-' :: channel)) := by
  have hword : "-toolchain-".toList = "-toolchain".toList ++ ['-'] := by simp
  have hassoc : ∀ base word : Text, base ++ version ++ (word ++ ['-']) ++ channel =
      base ++ (version ++ (word ++ '-' :: channel)) := by
    intro base word
    simp
  exact (congrArg (fun word => "cargo-stylus-base-".toList ++ version ++ word ++ channel)
    hword).trans (hassoc _ _)

/-- A name is for one version and one channel. -/
theorem imageName_inj {version version' channel channel' : Text} (h : PlainVersion version)
    (h' : PlainVersion version') (hname : imageName version channel = imageName version' channel') :
    version = version' ∧ channel = channel' := by
  have hchar : '-' ∉ "toolchain".toList := by decide
  rw [PlainVersion, toolchainWord] at h h'
  rw [imageName_eq, imageName_eq, toolchainWord] at hname
  obtain ⟨rfl, htail⟩ := append_word_inj hchar h h' (List.append_cancel_left hname)
  exact ⟨rfl, (List.cons.inj htail).2⟩

theorem Intended.eq {version channel text : Text} (h : Intended (imageName version channel) text)
    (hplain : PlainVersion version) : text = dockerfile version channel := by
  obtain ⟨version', channel', hplain', hname, rfl⟩ := h
  obtain ⟨rfl, rfl⟩ := imageName_inj hplain hplain' hname
  rfl

/-- The container was started by one of the commands, and if it has an image that is the one for
the version and the channel of that command. -/
def StartedBy (cs : List ReproducibleRun) (container : Container) : Prop :=
  ∃ c ∈ cs, ∃ channel dir, c.HasChannel channel ∧
    container.args = runArgs dir (imageName c.version channel)
      (["cargo".toList, "stylus".toList] ++ c.commandLine) ∧
    ∀ text, container.builtFrom = some text → text = dockerfile c.version channel

/-- What Docker keeps while the commands use it. -/
structure Clean (cs : List ReproducibleRun) (s : DockerState) : Prop where
  images : ∀ name text, s.images name = some text → Intended name text
  building : ∀ build ∈ s.building, Intended build.1 build.2
  containers : ∀ container ∈ s.containers, StartedBy cs container

theorem clean_empty (cs : List ReproducibleRun) : Clean cs .empty where
  images := nofun
  building := nofun
  containers := nofun

variable {cs : List ReproducibleRun} {c : ReproducibleRun} {channel : Text} {s t : DockerState}

theorem Clean.works (h : Clean cs s) (hworks : DockerWorks s t) : Clean cs t := by
  have hrest : ∀ {before after : List (Text × Text)} {build : Text × Text},
      s.building = before ++ build :: after →
      ∀ build ∈ before ++ after, Intended build.1 build.2 := by
    intro before after build hbuilding other hother
    refine h.building other (hbuilding ▸ ?_)
    rcases List.mem_append.1 hother with hother | hother
    · exact List.mem_append_left _ hother
    · exact List.mem_append_right _ (List.mem_cons_of_mem _ hother)
  rcases hworks with @⟨name, text, before, after, hbuilding⟩ |
    @⟨name, text, before, after, hbuilding⟩
  · refine ⟨fun name' text' himage => ?_, hrest hbuilding, h.containers⟩
    dsimp only at himage
    rcases eq_or_ne name' name with rfl | hne
    · rw [Function.update_self] at himage
      obtain rfl := Option.some.inj himage
      exact h.building _ (hbuilding ▸ List.mem_append_right _ List.mem_cons_self)
    · rw [Function.update_of_ne hne] at himage
      exact h.images name' text' himage
  · exact ⟨h.images, hrest hbuilding, h.containers⟩

theorem buildImageArgs_inj {name name' : Text} :
    buildImageArgs name = buildImageArgs name' ↔ name = name' := by
  simp [buildImageArgs]

theorem runArgs_inj {dir dir' name name' : Text} {commandLine commandLine' : List Text}
    (h : runArgs dir name commandLine = runArgs dir' name' commandLine') :
    name = name' ∧ commandLine = commandLine' := by
  simp only [runArgs, List.cons_append, List.nil_append, List.cons.injEq, true_and] at h
  exact h.2

theorem runArgs_ne_buildImageArgs (dir name name' : Text) (commandLine : List Text) :
    runArgs dir name commandLine ≠ buildImageArgs name' := by
  simp [runArgs, buildImageArgs]

/-- What a command writes to a build is the Dockerfile of its version and channel. -/
theorem ReproducibleRun.Asks.writeStdin_eq {args : List Text} {text : Text}
    (h : c.Asks channel (.writeStdin args text)) :
    args = buildImageArgs (imageName c.version channel) ∧ text = dockerfile c.version channel := by
  cases h
  exact ⟨rfl, rfl⟩

theorem ReproducibleRun.Asks.spawn_eq {args : List Text} (h : c.Asks channel (.spawn args)) :
    args = buildImageArgs (imageName c.version channel) ∨
      ∃ dir, args = runArgs dir (imageName c.version channel)
        (["cargo".toList, "stylus".toList] ++ c.commandLine) := by
  cases h with
  | spawnBuild => exact .inl rfl
  | run => exact .inr ⟨_, rfl⟩

/-- A request of one of the commands keeps everything as it is to be. -/
theorem Clean.responds {entry : Σ r : DockerRequest, Except String r.Response} (h : Clean cs s)
    (hc : c ∈ cs) (hplain : PlainVersion c.version) (hchannel : c.HasChannel channel)
    (hasks : c.Asks channel entry.1) (hresponds : DockerResponds s entry t) : Clean cs t := by
  rcases hresponds with _ | _ | _ | @⟨name, text⟩ | @⟨dir, name, commandLine⟩ | _
  · exact h
  · exact h
  · exact h
  · obtain ⟨hname, rfl⟩ := hasks.writeStdin_eq
    obtain rfl := buildImageArgs_inj.1 hname
    refine ⟨h.images, List.forall_mem_cons.2 ⟨?_, h.building⟩, h.containers⟩
    exact ⟨c.version, channel, hplain, rfl, rfl⟩
  · refine ⟨h.images, h.building, List.forall_mem_cons.2 ⟨?_, h.containers⟩⟩
    rcases hasks.spawn_eq with hargs | ⟨dir', hargs⟩
    · exact absurd hargs (runArgs_ne_buildImageArgs _ _ _ _)
    · obtain ⟨rfl, -⟩ := runArgs_inj hargs
      exact ⟨c, hc, channel, dir', hchannel, hargs, fun text htext =>
        (h.images _ _ htext).eq hplain⟩
  · exact h

/-- The runs of some commands. -/
def AllRun (runs : List (ReproducibleRun × DockerLog)) : Prop :=
  ∀ r ∈ runs, ∃ o, Runs r.1.run r.2 o

/-- Whatever commands use Docker at the same time, and whatever fails, at each moment every
container that was started belongs to one of them, and its image, if there is one, is built for
the version and the channel of that command. -/
theorem containers_intended {runs : List (ReproducibleRun × DockerLog)} {whole sofar : DockerLog}
    (hruns : AllRun runs) (hplain : ∀ r ∈ runs, PlainVersion r.1.version)
    (hwhole : Interleaves (runs.map Prod.snd) whole) (hsofar : sofar <+: whole)
    (hhistory : dockerService.History .empty sofar t) :
    ∀ container ∈ t.containers, StartedBy (runs.map Prod.fst) container := by
  refine (hhistory.invariant (clean_empty _) ⟨fun _ _ h => h.works, ?_⟩).containers
  intro entry hentry s' t' hclean hresponds
  obtain ⟨log, hlog, hmem⟩ := hwhole.mem_iff.1 (hsofar.subset hentry)
  obtain ⟨r, hr, rfl⟩ := List.mem_map.1 hlog
  obtain ⟨o, hrun⟩ := hruns r hr
  obtain ⟨channel, hchannel, hasks⟩ := ReproducibleRun.asks_of_runs hrun entry hmem
  exact hclean.responds (List.mem_map_of_mem hr) (hplain r hr) hchannel hasks hresponds

/-- A Linux host with a project. -/
def linuxHost : HostEnv where
  osType := some "Linux".toList
  osRelease := some "6.8.0".toList
  toolchain := fixedLibs
  toolchainFile := .ok fixedText
  currentDir := .ok (utf8 ['/'])
  showUtf8Error _ := "invalid utf-8 sequence"

/-- A command on it. -/
def linuxRun (commandLine : List Text) : ReproducibleRun :=
  ⟨linuxHost, none, commandLine⟩

/-- The image for this version and that channel. -/
def linuxImage : Text :=
  imageName cargoPkgVersion fixedChannel

theorem linuxRun_hasChannel (commandLine : List Text) :
    (linuxRun commandLine).HasChannel fixedChannel :=
  extractToolchainChannel_fixedText

theorem plainVersion_cargoPkgVersion : PlainVersion cargoPkgVersion := by
  rw [PlainVersion]
  decide

/-- The answers of a Docker that lists `listing`. -/
def listingAnswer (listing : Bytes) : ∀ r : DockerRequest, r.Response
  | .output _ => ⟨true, listing, []⟩
  | .spawn _ | .writeStdin _ _ | .wait _ => ()

/-- The arguments that its container is started with. -/
def linuxArgs (commandLine : List Text) : List Text :=
  runArgs ['/'] linuxImage (["cargo".toList, "stylus".toList] ++ commandLine)

theorem answered_runInDockerContainer (listing : Bytes) (commandLine : List Text) :
    answered (listingAnswer listing)
      (runInDockerContainer linuxHost cargoPkgVersion fixedChannel
        (["cargo".toList, "stylus".toList] ++ commandLine)) =
      ([.spawn (linuxArgs commandLine), .wait (linuxArgs commandLine)], .ok ()) := by
  have hdir : linuxHost.currentDir = .ok (utf8 ['/']) := rfl
  rw [runInDockerContainer, hdir]
  have hread : done (.unwrap "called `Option::unwrap()` on a `None` value"
      (fromUtf8 (utf8 ['/']))) = (done (.ok ['/']) : Docker Text) := by
    rw [fromUtf8_utf8]
    rfl
  have hcurrent : answered (listingAnswer listing) (done (.mapErr
      ("failed to find current directory: " ++ ·) (.ofExcept (.ok (utf8 ['/'])))) :
      Docker Bytes) = ([], .ok (utf8 ['/'])) := rfl
  refine answered_bind_ok hcurrent ?_
  rw [hread]
  rfl

theorem linuxRun_run (commandLine : List Text) : (linuxRun commandLine).run = (do
    createImage linuxHost cargoPkgVersion fixedChannel
    runInDockerContainer linuxHost cargoPkgVersion fixedChannel
      (["cargo".toList, "stylus".toList] ++ commandLine)) := by
  have hhost : verifyValidHost (linuxRun commandLine).env = .ok () := rfl
  have hchannel := linuxRun_hasChannel commandLine
  rw [ReproducibleRun.HasChannel] at hchannel
  rw [ReproducibleRun.run, runReproducible, hhost, hchannel]
  rfl

/-- The log of the command where there is no image. -/
def freshLog (commandLine : List Text) : DockerLog :=
  [⟨.output (imagesArgs linuxImage), .ok ⟨true, [10], []⟩⟩,
    ⟨.spawn (buildImageArgs linuxImage), .ok ()⟩,
    ⟨.writeStdin (buildImageArgs linuxImage) (dockerfile cargoPkgVersion fixedChannel),
      .ok ()⟩,
    ⟨.wait (buildImageArgs linuxImage), .ok ()⟩,
    ⟨.spawn (linuxArgs commandLine), .ok ()⟩,
    ⟨.wait (linuxArgs commandLine), .ok ()⟩]

theorem freshLog_runs (commandLine : List Text) :
    Runs (linuxRun commandLine).run (freshLog commandLine) (.ok ()) := by
  rw [linuxRun_run]
  have himage : answered (listingAnswer [10])
      (createImage linuxHost cargoPkgVersion fixedChannel) =
      (((freshLog commandLine).map Sigma.fst).take 4, .ok ()) := rfl
  have hrun := runs_answered (listingAnswer [10])
    (createImage linuxHost cargoPkgVersion fixedChannel >>= fun _ =>
      runInDockerContainer linuxHost cargoPkgVersion fixedChannel
        (["cargo".toList, "stylus".toList] ++ commandLine))
  rw [answered_bind_ok himage (answered_runInDockerContainer _ _)] at hrun
  exact hrun

/-- Docker while the image is built. -/
def buildingDocker : DockerState :=
  { DockerState.empty with
    building := [(linuxImage, dockerfile cargoPkgVersion fixedChannel)] }

/-- Docker with the image. -/
def builtDocker : DockerState :=
  { DockerState.empty with
    images := Function.update DockerState.empty.images linuxImage
      (some (dockerfile cargoPkgVersion fixedChannel)) }

/-- Docker with the image and the container. -/
def startedDocker (commandLine : List Text) : DockerState :=
  { builtDocker with
    containers := [⟨linuxArgs commandLine, builtDocker.images linuxImage⟩] }

theorem freshLog_history (commandLine : List Text) :
    dockerService.History .empty (freshLog commandLine) (startedDocker commandLine) := by
  have hstart : dockerService.History .empty [] .empty := .start
  have hlists : Lists .empty linuxImage ⟨true, [10], []⟩ := fun _ => by decide
  have hspawn := @DockerResponds.spawnBuild .empty linuxImage
  have hwrite : DockerResponds .empty _ buildingDocker := .writeDockerfile
  have hbuilt : DockerWorks buildingDocker builtDocker :=
    @DockerWorks.built buildingDocker linuxImage _ [] [] rfl
  have hbuild := @DockerResponds.wait builtDocker (buildImageArgs linuxImage)
  have hrun : DockerResponds builtDocker _ (startedDocker commandLine) := .run
  have hwait := @DockerResponds.wait (startedDocker commandLine) (linuxArgs commandLine)
  have hhistory := (((hstart.responds (.images hlists)).responds hspawn).responds hwrite).works
    hbuilt
  exact ((hhistory.responds hbuild).responds hrun).responds hwait

/-- A verification in a container. -/
def noVerifyLine : List Text :=
  ["verify".toList, "--no-verify".toList, "--deployment-tx=0x01".toList]

theorem freshLog_allRun : AllRun [(linuxRun noVerifyLine, freshLog noVerifyLine)] :=
  List.forall_mem_singleton.2 ⟨.ok (), freshLog_runs _⟩

theorem containers_intended_linuxRun : StartedBy [linuxRun noVerifyLine]
    ⟨linuxArgs noVerifyLine, builtDocker.images linuxImage⟩ :=
  containers_intended freshLog_allRun (List.forall_mem_singleton.2 plainVersion_cargoPkgVersion)
    (interleaves_singleton _) (List.prefix_refl _) (freshLog_history _) _
    (List.mem_singleton.2 rfl)

/-! ## Images are not built again -/

/-- Where a build is started, there was no image of that name. -/
def BuildsAbsent (name : Text) (log : DockerLog) : Prop :=
  (∃ entry ∈ log, entry.1 = .spawn (buildImageArgs name)) → ∃ output : Output,
    ⟨.output (imagesArgs name), .ok output⟩ ∈ log ∧ output.success = true ∧
      ¬1 < output.stdout.count 10

/-- An image is not there if the list that Docker prints has one line at most. -/
theorem imageExists_spec (env : HostEnv) (name : Text) :
    wp (imageExists env name) fun log o => ∃ response,
      log = [⟨.output (imagesArgs name), response⟩] ∧ (o = .ok false → ∃ output : Output,
        response = .ok output ∧ output.success = true ∧ ¬1 < output.stdout.count 10) := by
  refine wp_bind_of (P := fun log o => ∃ response, log = [⟨.output (imagesArgs name), response⟩] ∧
    ∀ output, o = .ok output → response = .ok output) (fun response => ⟨response, rfl, ?_⟩)
    (fun log output h => ?_) (fun log e h => ?_) (fun log m h => ?_)
  · intro output houtput
    exact Outcome.ofExcept_eq_ok.1 (Outcome.mapErr_eq_ok.1 houtput)
  · obtain ⟨response, rfl, hresponse⟩ := h
    have hok := hresponse output rfl
    split_ifs with hsuccess
    · refine ⟨response, List.append_nil _, fun hfalse => ⟨output, hok, hsuccess, ?_⟩⟩
      exact of_decide_eq_false (Outcome.ok.inj hfalse)
    · rcases fromUtf8 output.stderr with _ | stderr
      · exact ⟨response, List.append_nil _, nofun⟩
      · dsimp only
        split_ifs
        · exact ⟨response, List.append_nil _, nofun⟩
        · exact ⟨response, List.append_nil _, nofun⟩
  · obtain ⟨response, rfl, -⟩ := h
    exact ⟨response, rfl, nofun⟩
  · obtain ⟨response, rfl, -⟩ := h
    exact ⟨response, rfl, nofun⟩

theorem not_builds_singleton {r : DockerRequest} {response : Except String r.Response}
    {name : Text} (h : r ≠ .spawn (buildImageArgs name)) :
    ¬∃ entry ∈ ([⟨r, response⟩] : DockerLog), entry.1 = .spawn (buildImageArgs name) := by
  rintro ⟨entry, hentry, heq⟩
  obtain rfl := List.mem_singleton.1 hentry
  exact h heq

/-- A build is of an image that was not there. -/
theorem createImage_builds (env : HostEnv) (version channel : Text) :
    wp (createImage env version channel) fun log _ =>
      BuildsAbsent (imageName version channel) log := by
  have hquiet : ∀ {response : Except String Output}, BuildsAbsent (imageName version channel)
      [⟨.output (imagesArgs (imageName version channel)), response⟩] :=
    fun h => absurd h (not_builds_singleton nofun)
  refine wp_bind_of (imageExists_spec env _) (fun log exists_ h => ?_) (fun log e h => ?_)
    (fun log m h => ?_)
  · obtain ⟨response, rfl, habsent⟩ := h
    rcases exists_
    · obtain ⟨output, rfl, hsuccess, hcount⟩ := habsent rfl
      refine wp_iff_runs.2 fun log o _ _ => ⟨output, ?_, hsuccess, hcount⟩
      exact List.mem_append_left _ List.mem_cons_self
    · exact hquiet
  · obtain ⟨response, rfl, -⟩ := h
    exact hquiet
  · obtain ⟨response, rfl, -⟩ := h
    exact hquiet

theorem avoids_build_runInDockerContainer (env : HostEnv) (version channel name : Text)
    (commandLine : List Text) :
    Avoids (fun r => r = .spawn (buildImageArgs name))
      (runInDockerContainer env version channel commandLine) := by
  refine (avoids_done _).bind fun dir => (avoids_done _).bind fun dir => ?_
  refine (avoids_askWith (fun h => ?_) _).bind fun _ => avoids_askWith nofun _
  exact runArgs_ne_buildImageArgs _ _ _ _ (DockerRequest.spawn.inj h)

theorem BuildsAbsent.append {name : Text} {log log' : DockerLog} (h : BuildsAbsent name log)
    (h' : ∀ entry ∈ log', ¬entry.1 = .spawn (buildImageArgs name)) :
    BuildsAbsent name (log ++ log') := by
  rintro ⟨entry, hentry, heq⟩
  rcases List.mem_append.1 hentry with hentry | hentry
  · obtain ⟨output, hmem, habsent⟩ := h ⟨entry, hentry, heq⟩
    exact ⟨output, List.mem_append_left _ hmem, habsent⟩
  · exact absurd heq (h' entry hentry)

theorem buildsAbsent_nil (name : Text) : BuildsAbsent name [] := by
  rintro ⟨entry, hentry, -⟩
  cases hentry

/-- A command starts a build only after it found no image of that name. -/
theorem ReproducibleRun.run_builds (c : ReproducibleRun) : wp c.run fun log _ =>
    ∀ channel, c.HasChannel channel → BuildsAbsent (imageName c.version channel) log := by
  have hnil : ∀ channel, c.HasChannel channel → BuildsAbsent (imageName c.version channel) [] :=
    fun channel _ => buildsAbsent_nil _
  refine wp_done_bind hnil fun _ _ => wp_done_bind hnil fun channel hchannel => ?_
  have hsame : ∀ {log}, BuildsAbsent (imageName c.version channel) log →
      ∀ channel, c.HasChannel channel → BuildsAbsent (imageName c.version channel) log := by
    intro log h channel' hchannel'
    obtain rfl := Outcome.ok.inj (hchannel.symm.trans hchannel')
    exact h
  refine wp_bind_of (createImage_builds c.env c.version channel) (fun log _ h => ?_)
    (fun _ _ h => hsame h) (fun _ _ h => hsame h)
  exact wp_mono (avoids_build_runInDockerContainer _ _ _ _ _) fun log' _ h' => hsame (h.append h')

theorem DockerResponds.lists {args : List Text} {output : Output}
    (h : DockerResponds s ⟨.output args, .ok output⟩ t) :
    ∃ name, args = imagesArgs name ∧ Lists s name output := by
  cases h with
  | images hlists => exact ⟨_, rfl, hlists⟩

/-- While there is an image of a name, listing the images of that name shows it. -/
theorem not_absent_of_image {name : Text} {output : Output} (himage : (s.images name).isSome)
    (h : DockerResponds s ⟨.output (imagesArgs name), .ok output⟩ t)
    (hsuccess : output.success = true) : 1 < output.stdout.count 10 := by
  obtain ⟨name', hargs, hlists⟩ := h.lists
  obtain rfl : name = name' := (List.cons.inj (List.cons.inj hargs).2).1
  exact (hlists hsuccess).2 himage

/-- Images are not removed. -/
theorem keeps_image (name : Text) (log : DockerLog) :
    dockerService.Keeps (fun s => (s.images name).isSome) log := by
  refine ⟨fun s t h hworks => ?_, fun entry _ s t h hresponds => ?_⟩
  · rcases hworks with @⟨name', text, before, after, hbuilding⟩ | _
    · dsimp only
      rcases eq_or_ne name name' with rfl | hne
      · rw [Function.update_self]
        rfl
      · rwa [Function.update_of_ne hne]
    · exact h
  · rcases hresponds with _ | _ | _ | _ | _ | _
    all_goals exact h

/-- A command whose image is there starts no build, whatever other commands do. -/
theorem cached_not_built {runs : List (ReproducibleRun × DockerLog)} {whole : DockerLog}
    {log : DockerLog} (hruns : AllRun runs) (hwhole : Interleaves (runs.map Prod.snd) whole)
    (hhistory : dockerService.History s whole t) (hmem : (c, log) ∈ runs)
    (hchannel : c.HasChannel channel)
    (himage : (s.images (imageName c.version channel)).isSome) :
    ∀ entry ∈ log, entry.1 ≠ .spawn (buildImageArgs (imageName c.version channel)) := by
  intro entry hentry hbuild
  obtain ⟨o, hrun⟩ := hruns _ hmem
  obtain ⟨output, hlisted, hsuccess, hcount⟩ :=
    wp_iff_runs.1 c.run_builds log o hrun channel hchannel ⟨entry, hentry, hbuild⟩
  have hlisted : _ ∈ whole := hwhole.mem_iff.2 ⟨log, List.mem_map_of_mem hmem, hlisted⟩
  obtain ⟨t', u, himage', hresponds⟩ :=
    hhistory.responds_of_mem himage (keeps_image _ whole) hlisted
  exact hcount (not_absent_of_image himage' hresponds hsuccess)

/-- The log of the command where there is the image. -/
def cachedLog (commandLine : List Text) : DockerLog :=
  [⟨.output (imagesArgs linuxImage), .ok ⟨true, [10, 10], []⟩⟩,
    ⟨.spawn (linuxArgs commandLine), .ok ()⟩,
    ⟨.wait (linuxArgs commandLine), .ok ()⟩]

theorem cachedLog_runs (commandLine : List Text) :
    Runs (linuxRun commandLine).run (cachedLog commandLine) (.ok ()) := by
  rw [linuxRun_run]
  have himage : answered (listingAnswer [10, 10])
      (createImage linuxHost cargoPkgVersion fixedChannel) =
      ([.output (imagesArgs linuxImage)], .ok ()) := rfl
  have hrun := runs_answered (listingAnswer [10, 10])
    (createImage linuxHost cargoPkgVersion fixedChannel >>= fun _ =>
      runInDockerContainer linuxHost cargoPkgVersion fixedChannel
        (["cargo".toList, "stylus".toList] ++ commandLine))
  rw [answered_bind_ok himage (answered_runInDockerContainer _ _)] at hrun
  exact hrun

theorem cachedLog_allRun : AllRun [(linuxRun noVerifyLine, cachedLog noVerifyLine)] :=
  List.forall_mem_singleton.2 ⟨.ok (), cachedLog_runs _⟩

theorem builtDocker_image : (builtDocker.images linuxImage).isSome := by
  have himage := Function.update_self linuxImage
    (some (dockerfile cargoPkgVersion fixedChannel)) DockerState.empty.images
  exact Option.isSome_iff_exists.2 ⟨_, himage⟩

theorem cachedLog_history (commandLine : List Text) :
    dockerService.History builtDocker (cachedLog commandLine) (startedDocker commandLine) := by
  have hstart : dockerService.History builtDocker [] builtDocker := .start
  have hlists : Lists builtDocker linuxImage ⟨true, [10, 10], []⟩ :=
    fun _ => iff_of_true (by decide) builtDocker_image
  have hrun : DockerResponds builtDocker _ (startedDocker commandLine) := .run
  have hwait := @DockerResponds.wait (startedDocker commandLine) (linuxArgs commandLine)
  exact ((hstart.responds (.images hlists)).responds hrun).responds hwait

theorem cached_not_built_linuxRun :
    ¬∃ entry ∈ cachedLog noVerifyLine, entry.1 = .spawn (buildImageArgs linuxImage) := by
  have hname : imageName (linuxRun noVerifyLine).version fixedChannel = linuxImage := rfl
  rw [← hname]
  rintro ⟨entry, hentry, hbuild⟩
  refine cached_not_built cachedLog_allRun (interleaves_singleton _) (cachedLog_history _)
    (List.mem_singleton.2 rfl) (linuxRun_hasChannel _) ?_ entry hentry hbuild
  rw [hname]
  exact builtDocker_image

/-! ## The instructions of a Dockerfile -/

/-- What comments, escapes, quotes, lists, variables and the shell are written with. -/
def specialChars : List Char :=
  "#\\`\"'<>[]()|&;*?~!^$\x7b\x7d".toList

/-- A character that stands for itself : no white space but a blank, and no control character. -/
def IsPlain (ch : Char) : Prop :=
  (ch = ' ' ∨ isWhitespace ch = false) ∧ 31 < ch.toNat ∧ ch.toNat ≠ 127 ∧ ch ∉ specialChars

instance (ch : Char) : Decidable (IsPlain ch) :=
  inferInstanceAs (Decidable (_ ∧ _))

/-- A line of plain characters. There may be variables if it is a `FROM`. -/
def PlainLine (line : Text) : Prop :=
  ∀ ch ∈ line, IsPlain ch ∨
    ch ∈ ['$', '\x7b', '\x7d'] ∧ (splitWords line).head? = some "FROM".toList

instance (line : Text) : Decidable (PlainLine line) :=
  List.decidableBAll _ line

/-- The words of each line that has any. -/
def lineWords (text : Text) : List (List Text) :=
  ((text.splitOn '\n').map splitWords).filter (· ≠ [])

/-- What Docker reads Dockerfiles with. -/
structure DockerfileParser where
  /-- The instructions by words, before variables are replaced. -/
  parse : Text → Except String (List (List Text))
  /-- Each plain line that has words is one instruction, if no byte order mark comes first. -/
  parse_plain : ∀ {text : Text} {instructions : List (List Text)},
    text.head? ≠ some '\uFEFF' → (∀ line ∈ text.splitOn '\n', PlainLine line) →
      parse text = .ok instructions → instructions = lineWords text

/-- What an image of a version and a channel is built with, by words. -/
def intendedInstructions (version channel : Text) : List (List Text) :=
  let target := channel ++ "-x86_64-unknown-linux-gnu".toList
  [["ARG".toList, "BUILD_PLATFORM=linux/amd64".toList],
    ["FROM".toList, "--platform=$\x7bBUILD_PLATFORM\x7d".toList,
      "offchainlabs/cargo-stylus-base:".toList ++ version, "AS".toList, "base".toList],
    ["RUN".toList, "rustup".toList, "toolchain".toList, "install".toList, target],
    ["RUN".toList, "rustup".toList, "default".toList, target],
    ["RUN".toList, "rustup".toList, "target".toList, "add".toList,
      "wasm32-unknown-unknown".toList],
    ["RUN".toList, "rustup".toList, "component".toList, "add".toList, "rust-src".toList,
      "--toolchain".toList, target]]

theorem splitWords_spaces (n : ℕ) (s : Text) :
    splitWords (List.replicate n ' ' ++ s) = splitWords s := by
  induction n with
  | zero => rfl
  | succ n ih =>
    rw [List.replicate_succ, List.cons_append]
    exact (splitWords_append_space [] _).trans ih

theorem plainLine_spaces (n : ℕ) {line : Text} (h : PlainLine line) :
    PlainLine (List.replicate n ' ' ++ line) := by
  intro ch hch
  rw [splitWords_spaces]
  rcases List.mem_append.1 hch with hch | hch
  · rw [List.eq_of_mem_replicate hch]
    exact .inl (by decide)
  · exact h ch hch

theorem dockerfileLines_eq (version channel : Text) :
    dockerfileLines version channel = (intendedInstructions version channel).map (join [' ']) := by
  simp [dockerfileLines, intendedInstructions, join, List.intercalate]

variable {version channel : Text}

/-- A word of plain characters. -/
def PlainWord (word : Text) : Prop :=
  ∀ ch ∈ word, IsPlain ch ∧ ch ≠ ' '

instance (word : Text) : Decidable (PlainWord word) :=
  List.decidableBAll _ word

theorem PlainWord.not_mem {word : Text} (h : PlainWord word) {ch : Char}
    (hch : ¬(IsPlain ch ∧ ch ≠ ' ')) : ch ∉ word :=
  fun hmem => hch (h ch hmem)

theorem plainLine_of_isPlain {line : Text} (h : ∀ ch ∈ line, IsPlain ch) : PlainLine line :=
  fun ch hch => .inl (h ch hch)

theorem isPlain_of_all {text : Text} (h : text.all fun ch => IsPlain ch) :
    ∀ ch ∈ text, IsPlain ch :=
  List.all_iff_forall_prop.1 h

theorem toNat_of_isAlphanum {ch : Char} (h : ch.isAlphanum = true) :
    48 ≤ ch.toNat ∧ ch.toNat ≤ 122 := by
  delta Char.isAlphanum Char.isAlpha Char.isUpper Char.isLower Char.isDigit at h
  simp only [Bool.or_eq_true, Bool.and_eq_true, decide_eq_true_eq, ge_iff_le,
    UInt32.le_iff_toNat_le] at h
  change (65 ≤ ch.toNat ∧ ch.toNat ≤ 90 ∨ 97 ≤ ch.toNat ∧ ch.toNat ≤ 122) ∨
    48 ≤ ch.toNat ∧ ch.toNat ≤ 57 at h
  omega

/-- Letters and digits stand for themselves. -/
theorem isPlain_of_isAlphanumeric {libs : ToolchainLibs} {ch : Char}
    (h : libs.isAlphanumeric ch = true) (hspace : isWhitespace ch = false) : IsPlain ch := by
  have hascii : ch.toNat < 128 → ch.isAlphanum = true := fun hlt =>
    (libs.isAlphanumeric_ascii ch hlt).symm.trans h
  have hspecial : ∀ ch ∈ specialChars, ch.toNat < 128 ∧ ch.isAlphanum = false :=
    List.all_iff_forall_prop.1 (by decide)
  refine ⟨.inr hspace, ?_, ?_, fun hmem => ?_⟩
  · by_contra hle
    have hrange := toNat_of_isAlphanum (hascii (by omega))
    omega
  · intro heq
    have hrange := toNat_of_isAlphanum (hascii (by omega))
    omega
  · obtain ⟨hlt, hfalse⟩ := hspecial ch hmem
    rw [hascii hlt] at hfalse
    cases hfalse

/-- A channel is a plain word if no letter or digit is white space. -/
theorem ReproducibleRun.HasChannel.plainWord (h : c.HasChannel channel)
    (hspace : ∀ ch, c.env.toolchain.isAlphanumeric ch = true → isWhitespace ch = false) :
    PlainWord channel := by
  rcases hfile : c.env.toolchainFile with e | text
  · rw [HasChannel, hfile] at h
    exact absurd h nofun
  · rw [HasChannel, hfile] at h
    obtain ⟨channel', -, -, rfl⟩ := extractToolchainChannel_eq_ok.1 h
    intro ch hmem
    have hchar := (List.mem_filter.1 hmem).2
    simp only [ToolchainLibs.isChannelChar, Bool.or_eq_true, decide_eq_true_eq] at hchar
    rcases hchar with (halnum | rfl) | rfl
    · have hblank := hspace ch halnum
      refine ⟨isPlain_of_isAlphanumeric halnum hblank, ?_⟩
      rintro rfl
      exact absurd hblank (by decide)
    · decide
    · decide

/-- The words of the lines that are written. -/
theorem splitWords_dockerfileLines (hversion : PlainWord version) (hchannel : PlainWord channel) :
    (dockerfileLines version channel).map splitWords = intendedInstructions version channel := by
  have hspace : ∀ words ∈ intendedInstructions version channel, ∀ word ∈ words,
      ' ' ∉ word ∧ word ≠ [] := by
    simp [intendedInstructions, hversion.not_mem, hchannel.not_mem]
  rw [dockerfileLines_eq, List.map_map]
  exact (List.map_congr_left fun words hwords =>
    splitWords_join_words (hspace words hwords)).trans (List.map_id _)

theorem newline_not_mem_dockerfileLines (hversion : PlainWord version)
    (hchannel : PlainWord channel) :
    ∀ line ∈ dockerfileLines version channel, '\n' ∉ line := by
  have hplain : ¬(IsPlain '\n' ∧ '\n' ≠ ' ') := by decide
  simp [dockerfileLines, hversion.not_mem hplain, hchannel.not_mem hplain]

theorem plainLine_dockerfileLines (hversion : PlainWord version) (hchannel : PlainWord channel) :
    ∀ line ∈ dockerfileLines version channel, PlainLine line := by
  have hchannel' : ∀ ch ∈ channel, IsPlain ch := fun ch hch => (hchannel ch hch).1
  have htarget : ∀ start : Text, (∀ ch ∈ start, IsPlain ch) →
      PlainLine (start ++ channel ++ "-x86_64-unknown-linux-gnu".toList) := by
    intro start hstart
    exact plainLine_of_isPlain (List.forall_mem_append.2
      ⟨List.forall_mem_append.2 ⟨hstart, hchannel'⟩, isPlain_of_all (by decide)⟩)
  have hwords := splitWords_dockerfileLines hversion hchannel
  simp only [dockerfileLines, List.forall_mem_cons, List.not_mem_nil, false_imp_iff, implies_true,
    and_true]
  refine ⟨plainLine_of_isPlain (isPlain_of_all (by decide)), ?_,
    htarget _ (isPlain_of_all (by decide)), htarget _ (isPlain_of_all (by decide)),
    plainLine_of_isPlain (isPlain_of_all (by decide)), htarget _ (isPlain_of_all (by decide))⟩
  have hhead := (List.cons.inj (List.cons.inj hwords).2).1
  have hstart : ∀ ch ∈ ("FROM --platform=$\x7bBUILD_PLATFORM\x7d " ++
      "offchainlabs/cargo-stylus-base:").toList, IsPlain ch ∨ ch ∈ ['$', '\x7b', '\x7d'] :=
    List.all_iff_forall_prop.1 (by decide)
  have hend : ∀ ch ∈ " AS base".toList, IsPlain ch := isPlain_of_all (by decide)
  intro ch hch
  rw [hhead]
  rcases List.mem_append.1 hch with hch | hch
  · rcases List.mem_append.1 hch with hch | hch
    · exact (hstart ch hch).imp_right fun hvar => ⟨hvar, rfl⟩
    · exact .inl (hversion ch hch).1
  · exact .inl (hend ch hch)

theorem join_append_cons (sep start part : Text) (parts : List Text) :
    join sep ((start ++ part) :: parts) = start ++ join sep (part :: parts) := by
  cases parts with
  | nil => simp only [join, List.intercalate_singleton]
  | cons part' parts => simp only [join, List.intercalate_cons_cons, List.append_assoc]

/-- The lines of a text that is indented but for its first line. -/
theorem splitOn_join_indented (n m : ℕ) : ∀ (lines : List Text) (line : Text),
    (∀ line' ∈ line :: lines, '\n' ∉ line') →
      (join ('\n' :: List.replicate n ' ') (line :: lines) ++
        '\n' :: List.replicate m ' ').splitOn '\n' =
      line :: (lines.map (List.replicate n ' ' ++ ·) ++ [List.replicate m ' '])
  | [], line, h => by
    have hline := h line List.mem_cons_self
    rw [join, List.intercalate_singleton, List.splitOn_append_cons_self_of_not_mem hline,
      List.splitOn_eq_singleton fun hmem => absurd (List.eq_of_mem_replicate hmem) (by decide)]
    rfl
  | line' :: lines, line, h => by
    obtain ⟨hline, hrest⟩ := List.forall_mem_cons.1 h
    have hline' : '\n' ∉ List.replicate n ' ' ++ line' := by
      rw [List.mem_append, not_or]
      refine ⟨fun hmem => ?_, hrest line' List.mem_cons_self⟩
      exact absurd (List.eq_of_mem_replicate hmem) (by decide)
    have htext : join ('\n' :: List.replicate n ' ') (line :: line' :: lines) ++
        '\n' :: List.replicate m ' ' =
        line ++ '\n' :: (join ('\n' :: List.replicate n ' ')
          ((List.replicate n ' ' ++ line') :: lines) ++ '\n' :: List.replicate m ' ') := by
      rw [join_append_cons, join, List.intercalate_cons_cons]
      simp only [join, List.append_assoc, List.cons_append]
    rw [htext, List.splitOn_append_cons_self_of_not_mem hline,
      splitOn_join_indented n m lines _ (List.forall_mem_cons.2
        ⟨hline', (List.forall_mem_cons.1 hrest).2⟩)]
    rfl

/-- The lines that are written. -/
theorem splitOn_dockerfile (hversion : PlainWord version) (hchannel : PlainWord channel) :
    ∃ line lines, dockerfileLines version channel = line :: lines ∧
      (dockerfile version channel).splitOn '\n' =
        line :: (lines.map (List.replicate 12 ' ' ++ ·) ++ [List.replicate 8 ' ']) :=
  ⟨_, _, rfl, splitOn_join_indented 12 8 _ _ (newline_not_mem_dockerfileLines hversion hchannel)⟩

/-- All lines of the file are plain. -/
theorem plainLine_dockerfile (hversion : PlainWord version) (hchannel : PlainWord channel) :
    ∀ line ∈ (dockerfile version channel).splitOn '\n', PlainLine line := by
  have hplain := plainLine_dockerfileLines hversion hchannel
  obtain ⟨line, lines, hlines, hsplit⟩ := splitOn_dockerfile hversion hchannel
  rw [hlines] at hplain
  obtain ⟨hline, hlines⟩ := List.forall_mem_cons.1 hplain
  rw [hsplit, List.forall_mem_cons, List.forall_mem_append]
  refine ⟨hline, fun line' hline' => ?_, fun line' hline' => ?_⟩
  · obtain ⟨line, hmem, rfl⟩ := List.mem_map.1 hline'
    exact plainLine_spaces 12 (hlines line hmem)
  · have hempty : PlainLine [] := nofun
    rw [List.mem_singleton.1 hline', ← List.append_nil (List.replicate 8 ' ')]
    exact plainLine_spaces 8 hempty

/-- The words of the file are those that are meant. -/
theorem lineWords_dockerfile (hversion : PlainWord version) (hchannel : PlainWord channel) :
    lineWords (dockerfile version channel) = intendedInstructions version channel := by
  have hwords := splitWords_dockerfileLines hversion hchannel
  obtain ⟨line, lines, hlines, hsplit⟩ := splitOn_dockerfile hversion hchannel
  have hindent : lines.map (splitWords ∘ (List.replicate 12 ' ' ++ ·)) = lines.map splitWords :=
    List.map_congr_left fun line _ => splitWords_spaces 12 line
  have hblank : splitWords (List.replicate 8 ' ') = [] := splitWords_spaces 8 []
  rw [hlines] at hwords
  rw [lineWords, hsplit, List.map_cons, List.map_append, List.map_map, hindent, List.map_singleton,
    hblank, ← List.cons_append, ← List.map_cons, hwords]
  simp [intendedInstructions]

/-- Every Dockerfile that a command writes is read as the six instructions that are meant,
whatever the toolchain file is. -/
theorem dockerfile_instructions (parser : DockerfileParser) {log : DockerLog}
    {o : Outcome String Unit} (h : Runs c.run log o) (hversion : PlainWord c.version)
    (hspace : ∀ ch, c.env.toolchain.isAlphanumeric ch = true → isWhitespace ch = false) :
    ∀ entry ∈ log, ∀ args text, entry.1 = .writeStdin args text → ∃ channel,
      c.HasChannel channel ∧ ∀ instructions, parser.parse text = .ok instructions →
        instructions = intendedInstructions c.version channel := by
  intro entry hentry args text heq
  obtain ⟨channel, hchannel, hasks⟩ := ReproducibleRun.asks_of_runs h entry hentry
  rw [heq] at hasks
  obtain ⟨-, rfl⟩ := hasks.writeStdin_eq
  have hword := hchannel.plainWord hspace
  refine ⟨channel, hchannel, fun instructions hparse => ?_⟩
  have hhead : (dockerfile c.version channel).head? = some 'A' := rfl
  rw [parser.parse_plain (by rw [hhead]; decide) (plainLine_dockerfile hversion hword) hparse]
  exact lineWords_dockerfile hversion hword

/-- A parser that reads plain lines only. -/
def plainParser : DockerfileParser where
  parse text :=
    if ∀ line ∈ text.splitOn '\n', PlainLine line then .ok (lineWords text)
    else .error "unsupported line"
  parse_plain := by
    intro text instructions _ hplain hparse
    rw [if_pos hplain] at hparse
    exact (Except.ok.inj hparse).symm

theorem isWhitespace_of_isAlphanum (ch : Char) (h : ch.isAlphanum = true) :
    isWhitespace ch = false := by
  have hrange := toNat_of_isAlphanum h
  simp only [isWhitespace, Bool.or_eq_false_iff, Bool.and_eq_false_iff, beq_eq_false_iff_ne,
    decide_eq_false_iff_not]
  omega

theorem parse_plainParser {text : Text} (h : ∀ line ∈ text.splitOn '\n', PlainLine line) :
    plainParser.parse text = .ok (lineWords text) := by
  simp only [plainParser]
  rw [if_pos h]

/-- It reads the file that is written. -/
theorem parse_dockerfile_linuxRun : plainParser.parse (dockerfile cargoPkgVersion fixedChannel) =
    .ok (intendedInstructions cargoPkgVersion fixedChannel) := by
  have hversion : PlainWord cargoPkgVersion := by decide
  have hchannel : PlainWord fixedChannel := by decide
  rw [parse_plainParser (plainLine_dockerfile hversion hchannel),
    lineWords_dockerfile hversion hchannel]

theorem dockerfile_instructions_linuxRun :
    plainParser.parse (dockerfile cargoPkgVersion fixedChannel) =
        .ok (intendedInstructions cargoPkgVersion fixedChannel) ∧
      ∃ channel, (linuxRun noVerifyLine).HasChannel channel ∧ ∀ instructions,
        plainParser.parse (dockerfile cargoPkgVersion fixedChannel) = .ok instructions →
          instructions = intendedInstructions cargoPkgVersion channel :=
  ⟨parse_dockerfile_linuxRun, dockerfile_instructions plainParser (freshLog_runs _) (by decide)
    isWhitespace_of_isAlphanum
    ⟨.writeStdin (buildImageArgs linuxImage) (dockerfile cargoPkgVersion fixedChannel),
      .ok ()⟩ (List.mem_of_mem_take (i := 3) (List.mem_of_mem_getLast? rfl)) _ _ rfl⟩

end CargoStylus
