import Twincam.PidFile

/-!
# The command line (`options` in `twincam.h`, `processArgs` in `twincam.cpp`, `parse_args` in `camera_session.cpp`)

`processArgs` goes through the options that `getopt_long` yields and stops at the first one that it does not carry on
after: a signal to the running instance, the help, or an option of a feature that was not built in.

* `Options.after` says what a list of options amounts to: the last argument of an option with an argument counts, and of
  the others whether they were given.  `command_line` says that this is what the loop computes.
* `chosenSink_after`: so the sink of a session depends on the set of the options and on the last file name only.
-/

namespace Twincam

/-- What `meson.build` finds. -/
structure Build where
  HAVE_DRM : Bool
  HAVE_SDL : Bool
  HAVE_LIBJPEG : Bool

/-- The bytes of an ASCII string. -/
def cString (s : String) : List UInt8 := s.toList.map fun c => UInt8.ofNat c.toNat

/-- `struct options`; `drm` and `sdl` are members of it only when they were built in. -/
structure Options where
  camera : Int
  drm : Bool
  print_available_cameras : Bool
  print_func : Bool
  to_syslog : Bool
  uptime : Bool
  verbose : Bool
  sdl : Bool
  pf : List UInt8
  filename : List UInt8
deriving DecidableEq

/-- `options opts`, before `processArgs`. -/
def Options.initial (build : Build) : Options :=
  { camera := -1, drm := false, print_available_cameras := false, print_func := false, to_syslog := false,
    uptime := false, verbose := false, sdl := false, pf := cString (if build.HAVE_LIBJPEG then "MJPEG" else "YUYV"),
    filename := [] }

/-- What one call of `getopt_long` yields: the option and `optarg`, a string without its NUL. -/
structure Getopt where
  opt : Char
  optarg : List UInt8

/-- What `processArgs` does besides setting `opts`. -/
inductive ArgEffect
  | writePid (bytes : List UInt8)
  | kill (k : Kill)
  | setenv (name value : String)
  | openlog
  | help
deriving DecidableEq

/-- The surroundings of `processArgs`: the pid file as it is read and the local buffer for it, and the descriptor, the
process id and the write when it is written. -/
structure ArgCalls where
  build : Build
  pidFile : PidFile
  buf : PidBuf
  openWrite : Int
  getpid : Int32
  room : Option Nat

/-- `twncm_atoi` of a string. -/
def atoi (arg : List UInt8) : Int := (twncmAtoi (arg ++ [0])).getD 0

/-- The options so far and what was done so far. -/
structure Parsed where
  opts : Options
  effects : List ArgEffect
deriving DecidableEq

def Parsed.effect (s : Parsed) (e : ArgEffect) : Parsed := { s with effects := s.effects ++ [e] }

/-- How a turn of the loop ends: it goes on, or `processArgs` returns. -/
inductive Turn
  | go (s : Parsed)
  | ret (ret : Int) (s : Parsed)
deriving DecidableEq

/-- The end of the cases that signal; `none` when the buffer is read past its end. -/
def signalTurn (s : Parsed) (result : Option (Int × List Kill)) : Option Turn :=
  result.map fun (ret, kills) => .ret ret { s with effects := s.effects ++ kills.map .kill }

/-- The `switch` of `processArgs`. -/
def processArg (calls : ArgCalls) (s : Parsed) (arg : Getopt) : Option Turn :=
  match arg.opt with
  | 'c' => some (.go { s with opts := { s.opts with camera := atoi arg.optarg } })
  | 'd' =>
    if calls.openWrite < 0 then some (.go s)
    else some (.go (s.effect (.writePid (pidWrite calls.getpid calls.room).2)))
  | 'D' =>
    if calls.build.HAVE_DRM then some (.go { s with opts := { s.opts with drm := true } })
    else some (.ret 1 (s.effect .help))
  | 'F' => some (.go { s with opts := { s.opts with filename := arg.optarg } })
  | 'f' => some (.go { s with opts := { s.opts with print_func := true } })
  | 'k' => signalTurn s (processArgsK calls.pidFile calls.buf)
  | 'l' => some (.go { s with opts := { s.opts with print_available_cameras := true } })
  | 'n' => signalTurn s (processArgsN calls.pidFile calls.buf)
  | 'p' => some (.go { s with opts := { s.opts with pf := arg.optarg } })
  | 'S' =>
    if calls.build.HAVE_SDL then some (.go { s with opts := { s.opts with sdl := true } })
    else some (.ret 1 (s.effect .help))
  | 's' =>
    let s := { s with opts := { s.opts with to_syslog := true } }
    some (.go ((s.effect (.setenv "LIBCAMERA_LOG_FILE" "syslog")).effect .openlog))
  | 'u' => some (.go { s with opts := { s.opts with uptime := true } })
  | 'v' =>
    let s := { s with opts := { s.opts with verbose := true } }
    some (.go (s.effect (.setenv "LIBCAMERA_LOG_LEVELS" "DEBUG")))
  | _ => some (.ret 1 (s.effect .help))

/-- `processArgs`: its result, the options and what it did. -/
def processArgs (calls : ArgCalls) : List Getopt → Parsed → Option (Int × Parsed)
  | [], s => some (0, s)
  | arg :: args, s =>
    match processArg calls s arg with
    | none => none
    | some (.go s) => processArgs calls args s
    | some (.ret ret s) => some (ret, s)

/-! ### What a list of options amounts to -/

/-- The loop goes on after the option. -/
def goesOn (build : Build) (opt : Char) : Bool :=
  ['c', 'd', 'F', 'f', 'l', 'p', 's', 'u', 'v'].contains opt || (opt = 'D' && build.HAVE_DRM) ||
    (opt = 'S' && build.HAVE_SDL)

/-- The argument of the last option `opt`. -/
def lastArg (opt : Char) : List Getopt → Option (List UInt8)
  | [] => none
  | arg :: args => (lastArg opt args).or (if arg.opt = opt then some arg.optarg else none)

def given (opt : Char) (args : List Getopt) : Bool := args.any (·.opt = opt)

/-- The options after a list that the loop goes through to its end. -/
def Options.after (o : Options) (args : List Getopt) : Options where
  camera := ((lastArg 'c' args).map atoi).getD o.camera
  drm := o.drm || given 'D' args
  print_available_cameras := o.print_available_cameras || given 'l' args
  print_func := o.print_func || given 'f' args
  to_syslog := o.to_syslog || given 's' args
  uptime := o.uptime || given 'u' args
  verbose := o.verbose || given 'v' args
  sdl := o.sdl || given 'S' args
  pf := (lastArg 'p' args).getD o.pf
  filename := (lastArg 'F' args).getD o.filename

/-- What is done for an option that the loop goes on after. -/
def effectsOf (calls : ArgCalls) (arg : Getopt) : List ArgEffect :=
  if arg.opt = 'd' then if calls.openWrite < 0 then [] else [.writePid (pidWrite calls.getpid calls.room).2]
  else if arg.opt = 's' then [.setenv "LIBCAMERA_LOG_FILE" "syslog", .openlog]
  else if arg.opt = 'v' then [.setenv "LIBCAMERA_LOG_LEVELS" "DEBUG"]
  else []

def Parsed.after (calls : ArgCalls) (s : Parsed) (args : List Getopt) : Parsed :=
  ⟨s.opts.after args, s.effects ++ args.flatMap (effectsOf calls)⟩

private theorem lastArg_cons_self (opt : Char) (optarg : List UInt8) (args : List Getopt) :
    lastArg opt (⟨opt, optarg⟩ :: args) = some ((lastArg opt args).getD optarg) := by
  rw [lastArg, if_pos rfl]
  cases lastArg opt args <;> rfl

private theorem lastArg_cons_ne {opt : Char} {arg : Getopt} (h : arg.opt ≠ opt) (args : List Getopt) :
    lastArg opt (arg :: args) = lastArg opt args := by
  rw [lastArg, if_neg h, Option.or_none]

private theorem given_cons (opt : Char) (arg : Getopt) (args : List Getopt) :
    given opt (arg :: args) = (decide (arg.opt = opt) || given opt args) := rfl

private theorem after_nil (calls : ArgCalls) (s : Parsed) : s.after calls [] = s := by
  simp [Parsed.after, Options.after, lastArg, given]

/-- An option that the loop goes on after adds itself in front of the ones to come. -/
private theorem processArg_of_goesOn {calls : ArgCalls} {arg : Getopt} (h : goesOn calls.build arg.opt = true)
    (s : Parsed) :
    ∃ s', processArg calls s arg = some (.go s') ∧ ∀ args, s'.after calls args = s.after calls (arg :: args) := by
  obtain ⟨opt, optarg⟩ := arg
  have hopt : (opt = 'c' ∨ opt = 'd' ∨ opt = 'F' ∨ opt = 'f' ∨ opt = 'l' ∨ opt = 'p' ∨ opt = 's' ∨ opt = 'u' ∨
      opt = 'v') ∨ (opt = 'D' ∧ calls.build.HAVE_DRM = true) ∨ (opt = 'S' ∧ calls.build.HAVE_SDL = true) := by
    simpa [goesOn, or_assoc] using h
  rcases hopt with (rfl | rfl | rfl | rfl | rfl | rfl | rfl | rfl | rfl) | ⟨rfl, hdrm⟩ | ⟨rfl, hsdl⟩
  case inl.inr.inl =>
    -- `-d` writes the pid file only when it can be opened
    by_cases hfd : calls.openWrite < 0
    · refine ⟨s, by simp [processArg, hfd], fun args => ?_⟩
      simp [Parsed.after, Options.after, effectsOf, lastArg_cons_ne, given_cons, hfd]
    · refine ⟨_, by simp [processArg, hfd]; rfl, fun args => ?_⟩
      simp [Parsed.after, Parsed.effect, Options.after, effectsOf, lastArg_cons_ne, given_cons, hfd]
  case inr.inl =>
    refine ⟨_, by simp [processArg, hdrm]; rfl, fun args => ?_⟩
    simp [Parsed.after, Options.after, effectsOf, lastArg_cons_ne, given_cons]
  case inr.inr =>
    refine ⟨_, by simp [processArg, hsdl]; rfl, fun args => ?_⟩
    simp [Parsed.after, Options.after, effectsOf, lastArg_cons_ne, given_cons]
  all_goals
    refine ⟨_, rfl, fun args => ?_⟩
    simp [Parsed.after, Parsed.effect, Options.after, effectsOf, lastArg_cons_self, lastArg_cons_ne, given_cons]

/-- An option that the loop does not go on after ends it, and leaves the options as they are. -/
private theorem processArg_of_not_goesOn {calls : ArgCalls} {arg : Getopt} (h : goesOn calls.build arg.opt = false)
    (s : Parsed) : processArg calls s arg =
      if arg.opt = 'k' then signalTurn s (processArgsK calls.pidFile calls.buf)
      else if arg.opt = 'n' then signalTurn s (processArgsN calls.pidFile calls.buf)
      else some (.ret 1 (s.effect .help)) := by
  unfold processArg
  split <;> simp_all [goesOn]

/-- The end of the loop at an option that it does not go on after. -/
def stopAt (calls : ArgCalls) (s : Parsed) (opt : Char) : Option (Int × Parsed) :=
  if opt = 'k' then (processArgsK calls.pidFile calls.buf).map fun (ret, kills) =>
    (ret, { s with effects := s.effects ++ kills.map .kill })
  else if opt = 'n' then (processArgsN calls.pidFile calls.buf).map fun (ret, kills) =>
    (ret, { s with effects := s.effects ++ kills.map .kill })
  else some (1, s.effect .help)

private theorem processArgs_cons_of_not_goesOn {calls : ArgCalls} {arg : Getopt}
    (h : goesOn calls.build arg.opt = false)
    (args : List Getopt) (s : Parsed) : processArgs calls (arg :: args) s = stopAt calls s arg.opt := by
  rw [processArgs, processArg_of_not_goesOn h, stopAt]
  by_cases hk : arg.opt = 'k'
  · rw [if_pos hk, if_pos hk, signalTurn]
    cases processArgsK calls.pidFile calls.buf <;> rfl
  · rw [if_neg hk, if_neg hk]
    by_cases hn : arg.opt = 'n'
    · rw [if_pos hn, if_pos hn, signalTurn]
      cases processArgsN calls.pidFile calls.buf <;> rfl
    · rw [if_neg hn, if_neg hn]

/-- The loop goes through the options in front of the first one that it does not go on after. -/
private theorem processArgs_append {calls : ArgCalls} {args : List Getopt}
    (h : ∀ arg ∈ args, goesOn calls.build arg.opt = true) (rest : List Getopt) (s : Parsed) :
    processArgs calls (args ++ rest) s = processArgs calls rest (s.after calls args) := by
  induction args generalizing s with
  | nil => rw [List.nil_append, after_nil]
  | cons arg args ih =>
    obtain ⟨s', hs', hafter⟩ := processArg_of_goesOn (h arg List.mem_cons_self) s
    rw [List.cons_append, processArgs, hs', ← hafter]
    exact ih (fun arg hmem => h arg (List.mem_cons_of_mem _ hmem)) s'

private theorem signalCase_ret {sig : Int} {file : PidFile} {buf : PidBuf} {r : Int × List Kill}
    (h : signalCase sig file buf = some r) : r.1 = 1 := by
  obtain ⟨pid, -, rfl⟩ := Option.map_eq_some_iff.1 h
  rfl

/-- Every option that ends the loop makes `processArgs` return 1. -/
private theorem stopAt_ret {calls : ArgCalls} {s : Parsed} {opt : Char} {r : Int × Parsed}
    (h : stopAt calls s opt = some r) :
    r.1 = 1 ∧ r.2.opts = s.opts := by
  unfold stopAt at h
  split at h
  · obtain ⟨⟨ret, kills⟩, hsignal, rfl⟩ := Option.map_eq_some_iff.1 h
    exact ⟨signalCase_ret hsignal, rfl⟩
  · split at h
    · obtain ⟨⟨ret, kills⟩, hsignal, rfl⟩ := Option.map_eq_some_iff.1 h
      exact ⟨signalCase_ret hsignal, rfl⟩
    · rw [← Option.some.inj h]
      exact ⟨rfl, rfl⟩

/-! ### The sink of a session -/

inductive SinkKind
  | SDLSink
  | KMSSink
  | FileSink (filename : List UInt8)
deriving DecidableEq

/-- `CameraSession::parse_args`: its result and the sink it makes. -/
def parse_args (build : Build) (opts : Options) : Int × Option SinkKind :=
  if build.HAVE_SDL && opts.sdl then (1, some .SDLSink)
  else if build.HAVE_DRM && opts.drm then (2, some .KMSSink)
  else if opts.filename ≠ [] then (3, some (.FileSink opts.filename))
  else (0, none)

/-- The sink that `CameraSession::start` makes. -/
def chosenSink (build : Build) (opts : Options) : Option SinkKind :=
  let (ret, sink) := parse_args build opts
  if ret = 0 then
    if build.HAVE_SDL then some .SDLSink
    else if build.HAVE_DRM then some .KMSSink
    else some (.FileSink opts.filename)
  else sink

private theorem Options.after_congr {args args' : List Getopt} (hlast : ∀ opt, lastArg opt args = lastArg opt args')
    (hgiven : ∀ opt, given opt args = given opt args') (o : Options) : o.after args = o.after args' := by
  simp only [Options.after, hlast, hgiven]

private theorem goesOn_drm (build : Build) : goesOn build 'D' = build.HAVE_DRM := by
  cases h : build.HAVE_DRM <;> simp [goesOn, h]

private theorem goesOn_sdl (build : Build) : goesOn build 'S' = build.HAVE_SDL := by
  cases h : build.HAVE_SDL <;> simp [goesOn, h]

/-- An option that was given and did not end the loop is one that the loop goes on after. -/
private theorem goesOn_of_given {build : Build} {args : List Getopt} (h : ∀ arg ∈ args, goesOn build arg.opt = true)
    {opt : Char} (hopt : given opt args = true) : goesOn build opt = true := by
  obtain ⟨arg, hmem, heq⟩ := List.any_eq_true.1 hopt
  rw [← of_decide_eq_true heq]
  exact h arg hmem

theorem chosenSink_after {build : Build} {args : List Getopt} (h : ∀ arg ∈ args, goesOn build arg.opt = true) :
    chosenSink build ((Options.initial build).after args) =
      if given 'S' args then some .SDLSink
      else if given 'D' args then some .KMSSink
      else if (lastArg 'F' args).getD [] ≠ [] then some (.FileSink ((lastArg 'F' args).getD []))
      else if build.HAVE_SDL then some .SDLSink
      else if build.HAVE_DRM then some .KMSSink
      else some (.FileSink []) := by
  have hsdl : given 'S' args = true → build.HAVE_SDL = true := fun hs => goesOn_sdl build ▸ goesOn_of_given h hs
  have hdrm : given 'D' args = true → build.HAVE_DRM = true := fun hd => goesOn_drm build ▸ goesOn_of_given h hd
  have hopts : ((Options.initial build).after args).sdl = given 'S' args ∧
      ((Options.initial build).after args).drm = given 'D' args ∧
      ((Options.initial build).after args).filename = (lastArg 'F' args).getD [] := by
    simp [Options.after, Options.initial]
  rw [chosenSink, parse_args, hopts.1, hopts.2.1, hopts.2.2]
  by_cases hs : given 'S' args = true
  · simp [hs, hsdl hs]
  · by_cases hd : given 'D' args = true
    · simp [hs, hd, hdrm hd]
    · by_cases hf : (lastArg 'F' args).getD [] = []
      · simp [hs, hd, hf]
      · simp [hs, hd, hf]

/-- A command line, whatever it is, is read up to the first option that ends the loop, and then `processArgs` returns 1.
If there is none it returns 0, and what it leaves in `opts` and the sink of the session depend on the last argument of
every option and on the set of the options given, not on their order: the display that was asked for and built in, SDL
before DRM, then the last file name, then the best display that was built in. -/
theorem command_line (calls : ArgCalls) (args : List Getopt) :
    (∀ before stop after, args = before ++ stop :: after → (∀ arg ∈ before, goesOn calls.build arg.opt = true) →
      goesOn calls.build stop.opt = false → ∀ r, processArgs calls args ⟨Options.initial calls.build, []⟩ = some r →
        r.1 = 1 ∧ r.2.opts = (Options.initial calls.build).after before) ∧
    ((∀ arg ∈ args, goesOn calls.build arg.opt = true) →
      processArgs calls args ⟨Options.initial calls.build, []⟩ =
        some (0, ⟨(Options.initial calls.build).after args, args.flatMap (effectsOf calls)⟩) ∧
      (∀ args', (∀ opt, lastArg opt args' = lastArg opt args) → (∀ opt, given opt args' = given opt args) →
        (Options.initial calls.build).after args' = (Options.initial calls.build).after args) ∧
      chosenSink calls.build ((Options.initial calls.build).after args) =
        if given 'S' args then some .SDLSink
        else if given 'D' args then some .KMSSink
        else if (lastArg 'F' args).getD [] ≠ [] then some (.FileSink ((lastArg 'F' args).getD []))
        else if calls.build.HAVE_SDL then some .SDLSink
        else if calls.build.HAVE_DRM then some .KMSSink
        else some (.FileSink [])) := by
  constructor
  · rintro before stop after rfl hbefore hstop r hr
    rw [processArgs_append hbefore, processArgs_cons_of_not_goesOn hstop] at hr
    exact stopAt_ret hr
  · intro hall
    refine ⟨?_, fun args' hlast hgiven => Options.after_congr hlast hgiven _, ?_⟩
    · have happ := processArgs_append hall [] ⟨Options.initial calls.build, []⟩
      rw [List.append_nil] at happ
      exact happ
    · exact chosenSink_after hall

/-- Everything built in, no pid file, and a buffer of zero bytes. -/
def allBuilt : ArgCalls := ⟨⟨true, true, true⟩, ⟨-1, none⟩, ⟨List.replicate 16 0, rfl⟩, -1, 42, none⟩

/-- `-F a -D -F b`. -/
def displayArgs : List Getopt := [⟨'F', cString "a"⟩, ⟨'D', []⟩, ⟨'F', cString "b"⟩]

/-- The display wins over the files. -/
theorem command_line_display :
    processArgs allBuilt displayArgs ⟨Options.initial allBuilt.build, []⟩ =
        some (0, ⟨(Options.initial allBuilt.build).after displayArgs, []⟩) ∧
      chosenSink allBuilt.build ((Options.initial allBuilt.build).after displayArgs) = some .KMSSink := by
  have hall : ∀ arg ∈ displayArgs, goesOn allBuilt.build arg.opt = true := by decide
  have h := (command_line allBuilt displayArgs).2 hall
  exact ⟨h.1, h.2.2⟩

end Twincam
