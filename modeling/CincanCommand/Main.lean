import CincanCommand.Frontend.Log
import CincanCommand.Inspector.Render
import CincanCommand.Inspector.Unfolding

namespace CincanCommand.Frontend

open Inspector

-- What `main`'s `run` branch leaves once `tool.run(all_args)` returned: the store, what it
-- wrote to `sys.stdout.buffer` and `sys.stderr.buffer`, and the status of `sys.exit`.
structure RunOutcome where
  store : CommandLogIndex
  stdout : Bytes
  stderr : Bytes
  exitCode : Int

-- `if log.exit_code == 0: if tool.config.is_command_log(): CommandLogWriter().write(log)`, then
-- `if log.stdout: sys.stdout.buffer.write(log.stdout)`, the same for stderr, and
-- `sys.exit(log.exit_code)`.
def mainRun (isCommandLog : Bool) (store : CommandLogIndex) (log : CommandLog) : RunOutcome :=
  { store := if log.exitCode = 0 then (if isCommandLog then store.append log else store)
      else store
    stdout := if log.stdout = [] then [] else log.stdout
    stderr := if log.stderr = [] then [] else log.stderr
    exitCode := log.exitCode }

-- The store after `main` reported each of `runs` in turn, each with whether the configuration
-- kept a command log at the time.
def reportAll (store : CommandLogIndex) : List (Bool × CommandLog) → CommandLogIndex
  | [] => store
  | (isCommandLog, log) :: runs => reportAll (mainRun isCommandLog store log).store runs

-- `ToolImage.run_get_string` once `__run` returned `log`:
-- `log.stdout.decode('utf8') + log.stderr.decode('utf8')`, `none` where a decode raises.
def runGetString (decode : Bytes → Option String) (log : CommandLog) : Option String :=
  (decode log.stdout).bind fun out => (decode log.stderr).map (out ++ ·)

-- `main`'s `fanin` and `fanout` branches: `CommandInspector(CommandLogIndex(),
-- pathlib.Path().resolve())` walks from `pathlib.Path(args.file).resolve()` with no digest.
def mainInspect (host : Host) (store : CommandLogIndex) (fanout : Bool) (file : Path) :
    FileDependency :=
  let inspector : CommandInspector := ⟨store, host.resolve "."⟩
  if fanout then inspector.fanout host (host.resolve file) none
  else inspector.fanin host (host.resolve file) none

-- `print(res)`.
def mainPrint (quoteArgs : List String → List String) (host : Host) (store : CommandLogIndex)
    (fanout : Bool) (file : Path) : List Char :=
  (mainInspect host store fanout file).str quoteArgs ++ ['\n']

-- Everything that reached `sys.stdout.buffer` and `sys.stderr.buffer` over a run whose select
-- loop ended in `st` and that `main` then reported as `out`.
def terminalOutput (st : ExecState) (out : RunOutcome) : Bytes × Bytes :=
  ((st.stdoutS.map (·.written)).getD [] ++ out.stdout, st.stderrS.written ++ out.stderr)

section Report

@[simp] theorem mainRun_stdout (isCommandLog : Bool) (store : CommandLogIndex) (log : CommandLog) :
    (mainRun isCommandLog store log).stdout = log.stdout := by
  simp only [mainRun]; split_ifs with h <;> simp [h]

@[simp] theorem mainRun_stderr (isCommandLog : Bool) (store : CommandLogIndex) (log : CommandLog) :
    (mainRun isCommandLog store log).stderr = log.stderr := by
  simp only [mainRun]; split_ifs with h <;> simp [h]

@[simp] theorem mainRun_exitCode (isCommandLog : Bool) (store : CommandLogIndex)
    (log : CommandLog) : (mainRun isCommandLog store log).exitCode = log.exitCode := rfl

theorem mainRun_store_ok (store : CommandLogIndex) {log : CommandLog} (h : log.exitCode = 0) :
    (mainRun true store log).store = store.append log := by
  simp [mainRun, h]

-- Whether `ToolImage.run` streams the output or `run_get_string` buffers it, each byte of the
-- container's frames up to the first empty one reaches the terminal exactly once, in order:
-- streamed by the select loop, or written by `main` from the log. `main` exits with the
-- command's status.
theorem terminal_output_once (md5 : Bytes → BitVec 128) (bufferOutput : Bool) (snd : Sender)
    (name : String) (cmdArgs cmd : List String) {frames : List (Nat × Bytes)} {tail : Bytes}
    (hframes : ∀ f ∈ frames, f.1 < 256 ∧ f.2.length < 2 ^ 56) (htail : StreamEnd tail)
    (cSocket : Source) (hsock : cSocket.bytes = frames.flatMap encodeFrame ++ tail)
    (stdin : Option Source) (writeStdout : Bool) (sels : List Selected) (st : ExecState)
    (h : execLoop bufferOutput snd sels (ExecState.init cSocket stdin writeStdout) = .ok st)
    (hend : st.cSocketOpen = false) (exitCode : Int) (isCommandLog : Bool)
    (store : CommandLogIndex) (uploaded downloaded : List FileLog) :
    let log := runLog (collectLog md5 bufferOutput
      (CommandLog.new ([name] ++ if cmdArgs = [] then cmd else cmdArgs)) exitCode st)
      uploaded downloaded
    terminalOutput st (mainRun isCommandLog store log) =
        (if writeStdout then payloadsOf 1 (frames.takeWhile (·.2 ≠ [])) else [],
          payloadsOf 2 (frames.takeWhile (·.2 ≠ []))) ∧
      (mainRun isCommandLog store log).exitCode = exitCode := by
  obtain ⟨hdata, tail', htail', hsock'⟩ := streamEnd_takeWhile hframes htail
  obtain ⟨hout, herr⟩ :=
    execLoop_outputs hdata htail' cSocket (hsock.trans hsock') stdin sels h hend
  cases bufferOutput <;> cases writeStdout <;>
    simp [terminalOutput, hout, herr, CommandLog.new]

-- A run that writes `A`, an empty frame and `B`, then its report: `A` alone reaches the terminal.
theorem terminal_output_once_echo :
    (∀ f ∈ [((1 : Nat), ([65] : Bytes)), (1, []), (1, [66])], f.1 < 256 ∧ f.2.length < 2 ^ 56) ∧
      echoEmptyEcho.bytes = [((1 : Nat), ([65] : Bytes)), (1, []), (1, [66])].flatMap encodeFrame ∧
      ∃ st, execLoop false byteSends [.ready true false, .ready true false]
          (ExecState.init echoEmptyEcho none true) = .ok st ∧ st.cSocketOpen = false ∧
        terminalOutput st (mainRun true ⟨[]⟩
            (runLog (collectLog (fun _ => 0) false (CommandLog.new ["cat"]) 0 st) [] [])) =
          ([65], []) ∧
        (mainRun true ⟨[]⟩
            (runLog (collectLog (fun _ => 0) false (CommandLog.new ["cat"]) 0 st) [] [])).exitCode =
          0 := by
  have hframes : ∀ f ∈ [((1 : Nat), ([65] : Bytes)), (1, []), (1, [66])],
      f.1 < 256 ∧ f.2.length < 2 ^ 56 := by decide
  have hsock : echoEmptyEcho.bytes =
      [((1 : Nat), ([65] : Bytes)), (1, []), (1, [66])].flatMap encodeFrame := by decide
  obtain ⟨st, hrun, hend⟩ := echoEmptyEcho_run false
  exact ⟨hframes, hsock, st, hrun, hend, terminal_output_once (fun _ => 0) false byteSends "cat"
    [] [] hframes (.inl rfl) echoEmptyEcho (by rw [List.append_nil]; exact hsock) none true _ st
    hrun hend 0 true ⟨[]⟩ [] []⟩

-- `run_get_string` returns all of the container's stdout, then all of its stderr, each decoded
-- whole, up to the first empty frame: how the frames of the two streams interleaved is lost,
-- and stdout is left out when `write_stdout` is off.
theorem run_get_string_output (md5 : Bytes → BitVec 128) (decode : Bytes → Option String)
    (snd : Sender) (name : String) (cmdArgs cmd : List String) (frames : List (Nat × Bytes))
    {tail : Bytes}
    (hframes : ∀ f ∈ frames, f.1 < 256 ∧ f.2.length < 2 ^ 56) (htail : StreamEnd tail)
    (cSocket : Source) (hsock : cSocket.bytes = frames.flatMap encodeFrame ++ tail)
    (stdin : Option Source) (writeStdout : Bool) (sels : List Selected) (exitCode : Int)
    (log : CommandLog)
    (h : containerExec md5 true snd name cmdArgs cmd cSocket stdin writeStdout sels exitCode =
      some (.ok log))
    (uploaded downloaded : List FileLog) :
    runGetString decode (runLog log uploaded downloaded) =
      (decode (if writeStdout then payloadsOf 1 (frames.takeWhile (·.2 ≠ [])) else [])).bind
        fun out => (decode (payloadsOf 2 (frames.takeWhile (·.2 ≠ [])))).map (out ++ ·) := by
  obtain ⟨hdata, tail', htail', hsock'⟩ := streamEnd_takeWhile hframes htail
  obtain ⟨_, -, -, rfl⟩ := containerExec_log md5 name cmdArgs cmd _ hdata htail' cSocket
    (hsock.trans hsock') stdin writeStdout sels exitCode log h
  simp [runGetString, execLog]

-- Each byte as the character of that code point.
def latin1 (data : Bytes) : Option String := some ⟨data.map fun b => Char.ofNat b.toNat⟩

theorem run_get_string_output_echo :
    (∀ f ∈ [((1 : Nat), ([65] : Bytes)), (1, []), (1, [66])], f.1 < 256 ∧ f.2.length < 2 ^ 56) ∧
      echoEmptyEcho.bytes =
        [((1 : Nat), ([65] : Bytes)), (1, []), (1, [66])].flatMap encodeFrame ++ [] ∧
      ∃ log, containerExec (fun _ => 0) true byteSends "cat" [] [] echoEmptyEcho none true
          [.ready true false, .ready true false] 0 = some (.ok log) ∧
        runGetString latin1 (runLog log [] []) = some "A" := by
  have hframes : ∀ f ∈ [((1 : Nat), ([65] : Bytes)), (1, []), (1, [66])],
      f.1 < 256 ∧ f.2.length < 2 ^ 56 := by decide
  have hsock : echoEmptyEcho.bytes =
      [((1 : Nat), ([65] : Bytes)), (1, []), (1, [66])].flatMap encodeFrame ++ [] := by decide
  obtain ⟨st, hrun, hend⟩ := echoEmptyEcho_run true
  have h := (containerExec_eq_ok (fun _ => 0) "cat" [] [] echoEmptyEcho none true _ 0 _).mpr
    ⟨st, hrun, hend, rfl⟩
  exact ⟨hframes, hsock, _, h, run_get_string_output (fun _ => 0) latin1 byteSends "cat" [] [] _
    hframes (.inl rfl) echoEmptyEcho hsock none true _ 0 _ h [] []⟩

end Report

section Provenance

variable {bufferOutput : Bool} {snd : Sender}

-- A disk whose every path is a regular file whose digest is `hexdigest 0`.
def zeroDisk : Host := ⟨fun _ => true, fun _ => [], fun _ => 0, fun _ _ => none, id⟩

-- The records `__container_exec` writes, and those `__run` adds when they are, are md5 hex
-- digests: the digests the inspector's walk needs.
theorem runLog_records (md5 : Bytes → BitVec 128) (command : List String) (exitCode : Int)
    (st : ExecState) {uploaded downloaded : List FileLog}
    (hfiles : ∀ r ∈ uploaded ++ downloaded, r.md5 ≠ "" ∧ ':' ∉ r.md5.toList) :
    ∀ r ∈ (runLog (collectLog md5 bufferOutput (CommandLog.new command) exitCode st) uploaded
        downloaded).inFiles ++
      (runLog (collectLog md5 bufferOutput (CommandLog.new command) exitCode st) uploaded
        downloaded).outFiles, r.md5 ≠ "" ∧ ':' ∉ r.md5.toList := by
  have hstream : ∀ path s, ∀ r ∈ streamRecord md5 path s, r.md5 ≠ "" ∧ ':' ∉ r.md5.toList :=
    fun _ _ r hr => by
      obtain ⟨d, hd⟩ := md5_of_mem_streamRecord hr
      exact hd ▸ ⟨hexdigest_ne_empty _, colon_not_mem_hexdigest _⟩
  have hup := fun r hr => hfiles r (List.mem_append_left downloaded hr)
  have hdown := fun r hr => hfiles r (List.mem_append_right uploaded hr)
  intro r hr
  by_cases h0 : exitCode = 0 <;>
    simp only [runLog_inFiles, runLog_outFiles, collectLog_inFiles, collectLog_outFiles,
      collectLog_exitCode, CommandLog.new, h0, if_true, if_false, List.nil_append,
      List.mem_append] at hr
  · rcases hr with (hr | hr) | ((hr | hr) | hr)
    exacts [hstream _ _ r hr, hup r hr, hstream _ _ r hr, hstream _ _ r hr, hdown r hr]
  · rcases hr with hr | hr
    exacts [hup r hr, absurd hr (List.not_mem_nil r)]

-- Records that are md5 hex digests stay so when a log joins the store.
theorem append_records {store : CommandLogIndex} {log : CommandLog}
    (hstore : ∀ cmd ∈ store.entries, ∀ r ∈ cmd.inFiles ++ cmd.outFiles,
      r.md5 ≠ "" ∧ ':' ∉ r.md5.toList)
    (hlog : ∀ r ∈ log.inFiles ++ log.outFiles, r.md5 ≠ "" ∧ ':' ∉ r.md5.toList) :
    ∀ cmd ∈ (store.append log).entries, ∀ r ∈ cmd.inFiles ++ cmd.outFiles,
      r.md5 ≠ "" ∧ ':' ∉ r.md5.toList := by
  intro c hc
  rcases List.mem_append.mp hc with hc | hc
  · exact hstore c hc
  · exact List.mem_singleton.mp hc ▸ hlog

-- What `main`'s walk shows directly under the file: the entries that recorded the file's
-- current digest on the side the walk matches, newest first.
theorem mainInspect_root (host : Host) (store : CommandLogIndex)
    (hstore : ∀ cmd ∈ store.entries, ∀ r ∈ cmd.inFiles ++ cmd.outFiles,
      r.md5 ≠ "" ∧ ':' ∉ r.md5.toList) (fanout : Bool) (file : Path) :
    (mainInspect host store fanout file).next.map (·.command) =
      store.entries.reverse.filter fun cmd => (if fanout then cmd.inFiles else cmd.outFiles).any
        (·.md5 == hashOf host (host.resolve file)) := by
  cases fanout
  · exact CommandInspector.run_root_commands ⟨store, _⟩ host faninDirection _ none
      (fun _ _ => List.mem_append_left _) hstore (fun _ h => by cases h)
  · exact CommandInspector.run_root_commands ⟨store, _⟩ host fanoutDirection _ none
      (fun _ _ => List.mem_append_right _) hstore (fun _ h => by cases h)

-- A run that `main` reports changes what `fanin` and `fanout` show directly under a file only
-- by putting itself first: exactly when it succeeded, the configuration keeps a command log,
-- and it recorded the file's current digest on the side the walk matches.
theorem report_prepends_run (isCommandLog : Bool) (store : CommandLogIndex) (log : CommandLog)
    (hstore : ∀ cmd ∈ store.entries, ∀ r ∈ cmd.inFiles ++ cmd.outFiles,
      r.md5 ≠ "" ∧ ':' ∉ r.md5.toList)
    (hlog : ∀ r ∈ log.inFiles ++ log.outFiles, r.md5 ≠ "" ∧ ':' ∉ r.md5.toList)
    (host : Host) (fanout : Bool) (file : Path) :
    (mainInspect host (mainRun isCommandLog store log).store fanout file).next.map (·.command) =
      (if log.exitCode = 0 ∧ isCommandLog = true ∧
          (if fanout then log.inFiles else log.outFiles).any
            (·.md5 == hashOf host (host.resolve file)) = true then [log] else []) ++
        (mainInspect host store fanout file).next.map (·.command) := by
  by_cases hok : log.exitCode = 0 ∧ isCommandLog = true
  · obtain ⟨h0, rfl⟩ := hok
    rw [mainRun_store_ok store h0, mainInspect_root host _ (append_records hstore hlog),
      mainInspect_root host store hstore, CommandLogIndex.append, List.reverse_append,
      List.reverse_singleton, List.singleton_append, List.filter_cons]
    by_cases hp : (if fanout then log.inFiles else log.outFiles).any
        (·.md5 == hashOf host (host.resolve file)) = true
    · rw [if_pos hp, if_pos ⟨h0, rfl, hp⟩]; rfl
    · rw [if_neg hp, if_neg fun h => hp h.2.2]; rfl
  · have hsame : (mainRun isCommandLog store log).store = store := by
      simp only [mainRun]
      split_ifs with h0 hc
      exacts [absurd ⟨h0, hc⟩ hok, rfl, rfl]
    rw [hsame, if_neg fun h => hok ⟨h.1, h.2.1⟩, List.nil_append]

theorem mainRun_records (isCommandLog : Bool) {store : CommandLogIndex} {log : CommandLog}
    (hstore : ∀ cmd ∈ store.entries, ∀ r ∈ cmd.inFiles ++ cmd.outFiles,
      r.md5 ≠ "" ∧ ':' ∉ r.md5.toList)
    (hlog : ∀ r ∈ log.inFiles ++ log.outFiles, r.md5 ≠ "" ∧ ':' ∉ r.md5.toList) :
    ∀ cmd ∈ (mainRun isCommandLog store log).store.entries, ∀ r ∈ cmd.inFiles ++ cmd.outFiles,
      r.md5 ≠ "" ∧ ':' ∉ r.md5.toList := by
  simp only [mainRun]
  split_ifs
  exacts [append_records hstore hlog, hstore, hstore]

-- Over any sequence of reported runs, what `fanin` and `fanout` show directly under a file is
-- the runs that were logged and recorded the file's current digest on the side the walk
-- matches, the latest first, and then what was shown there before the first of them.
theorem reported_runs_latest_first (store : CommandLogIndex) (runs : List (Bool × CommandLog))
    (hstore : ∀ cmd ∈ store.entries, ∀ r ∈ cmd.inFiles ++ cmd.outFiles,
      r.md5 ≠ "" ∧ ':' ∉ r.md5.toList)
    (hruns : ∀ run ∈ runs, ∀ r ∈ run.2.inFiles ++ run.2.outFiles,
      r.md5 ≠ "" ∧ ':' ∉ r.md5.toList)
    (host : Host) (fanout : Bool) (file : Path) :
    (mainInspect host (reportAll store runs) fanout file).next.map (·.command) =
      ((runs.filter fun run => run.2.exitCode = 0 ∧ run.1 = true ∧
          (if fanout then run.2.inFiles else run.2.outFiles).any
            (·.md5 == hashOf host (host.resolve file)) = true).map (·.2)).reverse ++
        (mainInspect host store fanout file).next.map (·.command) := by
  induction runs generalizing store with
  | nil => rfl
  | cons run runs ih =>
      obtain ⟨isCommandLog, log⟩ := run
      have hlog := hruns _ (List.mem_cons_self _ _)
      rw [reportAll, ih _ (mainRun_records isCommandLog hstore hlog)
        (fun run hr => hruns run (List.mem_cons_of_mem _ hr)),
        report_prepends_run isCommandLog store log hstore hlog, List.filter_cons]
      by_cases hc : log.exitCode = 0 ∧ isCommandLog = true ∧
          (if fanout then log.inFiles else log.outFiles).any
            (·.md5 == hashOf host (host.resolve file)) = true
      · rw [if_pos hc, if_pos (decide_eq_true hc), List.map_cons, List.reverse_cons,
          List.append_assoc]
      · rw [if_neg hc, if_neg fun h => hc (of_decide_eq_true h), List.nil_append]

-- `touch a.txt` left the empty `a.txt` in the store; then `cp b.txt a.txt` wrote it again, once
-- with the command log kept and once without.
def touchLog : CommandLog :=
  { CommandLog.new ["touch", "a.txt"] with outFiles := [⟨"a.txt", hexdigest 0⟩] }

def copyZeroLog : CommandLog :=
  { CommandLog.new ["cp", "b.txt", "a.txt"] with
    inFiles := [⟨"b.txt", hexdigest 0⟩], outFiles := [⟨"a.txt", hexdigest 0⟩] }

theorem reported_runs_latest_first_copy :
    (∀ cmd ∈ (⟨[touchLog]⟩ : CommandLogIndex).entries, ∀ r ∈ cmd.inFiles ++ cmd.outFiles,
      r.md5 ≠ "" ∧ ':' ∉ r.md5.toList) ∧
    (∀ run ∈ [(true, copyZeroLog), (false, copyZeroLog)], ∀ r ∈ run.2.inFiles ++ run.2.outFiles,
      r.md5 ≠ "" ∧ ':' ∉ r.md5.toList) ∧
    (mainInspect zeroDisk (reportAll ⟨[touchLog]⟩ [(true, copyZeroLog), (false, copyZeroLog)])
        false "a.txt").next.map (·.command) = [copyZeroLog, touchLog] := by
  have hstore : ∀ cmd ∈ (⟨[touchLog]⟩ : CommandLogIndex).entries,
      ∀ r ∈ cmd.inFiles ++ cmd.outFiles, r.md5 ≠ "" ∧ ':' ∉ r.md5.toList := by decide
  have hruns : ∀ run ∈ [(true, copyZeroLog), (false, copyZeroLog)],
      ∀ r ∈ run.2.inFiles ++ run.2.outFiles, r.md5 ≠ "" ∧ ':' ∉ r.md5.toList := by decide
  exact ⟨hstore, hruns, (reported_runs_latest_first ⟨[touchLog]⟩ _ hstore hruns zeroDisk false
    "a.txt").trans (by decide)⟩

-- The children of the root of `main`'s walk once a successful `log` was written to the store:
-- when the file on disk has the digest of one of the log's records on the side the walk
-- matches, the log comes first, then the older matching entries, newest first.
theorem mainInspect_after_write (store : CommandLogIndex) (log : CommandLog)
    (hexit : log.exitCode = 0)
    (hstore : ∀ cmd ∈ store.entries, ∀ r ∈ cmd.inFiles ++ cmd.outFiles,
      r.md5 ≠ "" ∧ ':' ∉ r.md5.toList)
    (hlog : ∀ r ∈ log.inFiles ++ log.outFiles, r.md5 ≠ "" ∧ ':' ∉ r.md5.toList)
    (host : Host) (fanout : Bool) (r : FileLog)
    (hr : r ∈ if fanout then log.inFiles else log.outFiles) (file : Path)
    (hfile : hashOf host (host.resolve file) = r.md5) :
    (mainInspect host (mainRun true store log).store fanout file).next.map (·.command) =
      log :: store.entries.reverse.filter fun cmd =>
        (if fanout then cmd.inFiles else cmd.outFiles).any (·.md5 == r.md5) := by
  rw [mainRun_store_ok store hexit, mainInspect_root host _ (append_records hstore hlog), hfile,
    CommandLogIndex.append, List.reverse_append, List.reverse_singleton, List.singleton_append,
    List.filter_cons_of_pos]
  exact List.any_eq_true.mpr ⟨r, hr, by simp⟩

-- After `main` logged a successful run, `fanin` from any file holding what the run wrote, and
-- `fanout` from any file holding what it read, show that run first and then the older entries
-- recorded with the same digest, newest first. The store's other records, and those of the
-- files uploaded and downloaded, are md5 hex digests as the run's own are.
theorem logged_run_shown_first (md5 : Bytes → BitVec 128) (name : String)
    (cmdArgs cmd : List String) (cSocket : Source) (stdin : Option Source) (writeStdout : Bool)
    (sels : List Selected) (log : CommandLog)
    (h : containerExec md5 bufferOutput snd name cmdArgs cmd cSocket stdin writeStdout sels 0 =
      some (.ok log))
    (uploaded downloaded : List FileLog)
    (hfiles : ∀ r ∈ uploaded ++ downloaded, r.md5 ≠ "" ∧ ':' ∉ r.md5.toList)
    (store : CommandLogIndex)
    (hstore : ∀ cmd ∈ store.entries, ∀ r ∈ cmd.inFiles ++ cmd.outFiles,
      r.md5 ≠ "" ∧ ':' ∉ r.md5.toList)
    (host : Host) (fanout : Bool) (r : FileLog)
    (hr : r ∈ if fanout then (runLog log uploaded downloaded).inFiles
      else (runLog log uploaded downloaded).outFiles)
    (file : Path) (hfile : hashOf host (host.resolve file) = r.md5) :
    (mainInspect host (mainRun true store (runLog log uploaded downloaded)).store fanout
        file).next.map (·.command) =
      runLog log uploaded downloaded :: store.entries.reverse.filter fun cmd =>
        (if fanout then cmd.inFiles else cmd.outFiles).any (·.md5 == r.md5) := by
  obtain ⟨st, -, -, rfl⟩ := (containerExec_eq_ok md5 name cmdArgs cmd _ _ _ _ _ _).mp h
  exact mainInspect_after_write store _ (by simp) hstore (runLog_records md5 _ 0 st hfiles) host
    fanout r hr file hfile

-- The echo run downloads `out.txt`; `fanin` of a copy of it shows the run.
theorem logged_run_shown_first_echo :
    ∃ log, containerExec (fun _ => 0) false byteSends "cat" [] [] echoFrame none true
        [.ready false true, .ready true true, .ready true false] 0 = some (.ok log) ∧
      (∀ r ∈ ([] : List FileLog) ++ [⟨"out.txt", hexdigest 0⟩],
        r.md5 ≠ "" ∧ ':' ∉ r.md5.toList) ∧
      (∀ cmd ∈ (⟨[]⟩ : CommandLogIndex).entries, ∀ r ∈ cmd.inFiles ++ cmd.outFiles,
        r.md5 ≠ "" ∧ ':' ∉ r.md5.toList) ∧
      (⟨"out.txt", hexdigest 0⟩ ∈ if false then (runLog log [] [⟨"out.txt", hexdigest 0⟩]).inFiles
        else (runLog log [] [⟨"out.txt", hexdigest 0⟩]).outFiles) ∧
      hashOf zeroDisk (zeroDisk.resolve "copy.txt") = hexdigest 0 ∧
      (mainInspect zeroDisk (mainRun true ⟨[]⟩ (runLog log [] [⟨"out.txt", hexdigest 0⟩])).store
          false "copy.txt").next.map (·.command) =
        runLog log [] [⟨"out.txt", hexdigest 0⟩] ::
          (⟨[]⟩ : CommandLogIndex).entries.reverse.filter fun cmd =>
            (if false then cmd.inFiles else cmd.outFiles).any (·.md5 == hexdigest 0) := by
  obtain ⟨log, h⟩ := echoFrame_run false byteSends none
  have hfiles : ∀ r ∈ ([] : List FileLog) ++ [⟨"out.txt", hexdigest 0⟩],
      r.md5 ≠ "" ∧ ':' ∉ r.md5.toList := by
    simpa using ⟨hexdigest_ne_empty 0, colon_not_mem_hexdigest 0⟩
  have hr : (⟨"out.txt", hexdigest 0⟩ : FileLog) ∈
      if false then (runLog log [] [⟨"out.txt", hexdigest 0⟩]).inFiles
      else (runLog log [] [⟨"out.txt", hexdigest 0⟩]).outFiles := by
    simp [(containerExec_outFiles_dev h).1]
  exact ⟨log, h, hfiles, nofun, hr, rfl, logged_run_shown_first (fun _ => 0) "cat" [] [] echoFrame
    none true _ log h [] _ hfiles ⟨[]⟩ nofun zeroDisk false _ hr "copy.txt" rfl⟩

-- Once the container has been sent all of stdin, the `/dev/stdin` record digests all of it.
theorem stdin_record_of_sent (md5 : Bytes → BitVec 128) {cSocket stdin : Source}
    {writeStdout : Bool} {sels : List Selected} {st : ExecState}
    (h : execLoop bufferOutput snd sels (ExecState.init cSocket (some stdin) writeStdout) = .ok st)
    (hsent : st.sent = stdin.bytes) :
    streamRecord md5 "/dev/stdin" (st.stdin.map (·.stream)) =
      streamFile md5 "/dev/stdin" stdin.bytes := by
  obtain ⟨side, hside, -, hlen, hmd5, -⟩ := execLoop_stdinSound cSocket stdin writeStdout sels h
  simp [hside, streamRecord, streamFile, hlen, hmd5, hsent]

-- `cincan run tool < file`, then `cincan fanout file`: once a successful run has sent the
-- container all of the piped file, `fanout` from the file shows that run first, as long as the
-- file still holds those bytes and the inspector hashes as the runner does.
theorem piped_file_fanout (md5 : Bytes → BitVec 128) (name : String) (cmdArgs cmd : List String)
    (cSocket stdin : Source) (writeStdout : Bool) (sels : List Selected) (st : ExecState)
    (h : execLoop bufferOutput snd sels (ExecState.init cSocket (some stdin) writeStdout) = .ok st)
    (hsent : st.sent = stdin.bytes) (hne : stdin.bytes ≠ []) (log : CommandLog)
    (hlog : containerExec md5 bufferOutput snd name cmdArgs cmd cSocket (some stdin) writeStdout
      sels 0 = some (.ok log))
    (uploaded downloaded : List FileLog)
    (hfiles : ∀ r ∈ uploaded ++ downloaded, r.md5 ≠ "" ∧ ':' ∉ r.md5.toList)
    (store : CommandLogIndex)
    (hstore : ∀ cmd ∈ store.entries, ∀ r ∈ cmd.inFiles ++ cmd.outFiles,
      r.md5 ≠ "" ∧ ':' ∉ r.md5.toList)
    (host : Host) (file : Path) (hisFile : host.isFile (host.resolve file) = true)
    (hcontents : host.contents (host.resolve file) = stdin.bytes) (hmd5 : host.md5 = md5) :
    (mainInspect host (mainRun true store (runLog log uploaded downloaded)).store true
        file).next.map (·.command) =
      runLog log uploaded downloaded :: store.entries.reverse.filter fun cmd =>
        cmd.inFiles.any (·.md5 == hexdigest (md5 stdin.bytes)) := by
  obtain ⟨st', hrun, -, rfl⟩ := (containerExec_eq_ok md5 name cmdArgs cmd _ _ _ _ _ _).mp hlog
  obtain rfl : st' = st := Except.ok.inj (hrun.symm.trans h)
  refine mainInspect_after_write store _ (by simp) hstore (runLog_records md5 _ 0 st' hfiles)
    host true ⟨"/dev/stdin", hexdigest (md5 stdin.bytes)⟩ ?_ file
    (by simp [hashOf, hisFile, hcontents, hmd5])
  simp [stdin_record_of_sent md5 h hsent, streamFile, hne, CommandLog.new]

-- A disk holding `Hi` at every path.
def hiDisk : Host := ⟨fun _ => true, fun _ => [72, 105], fun _ => 0, fun _ _ => none, id⟩

-- `cat` is piped `Hi` while it stays silent, then writes `A` and ends.
theorem piped_file_fanout_hi :
    ∃ st log, execLoop false byteSends
        (List.replicate 3 (.ready false true) ++ [.ready true false, .ready true false])
        (ExecState.init echoFrame (some stdinHi) true) = .ok st ∧
      st.sent = stdinHi.bytes ∧ stdinHi.bytes ≠ [] ∧
      containerExec (fun _ => 0) false byteSends "cat" [] [] echoFrame (some stdinHi) true
        (List.replicate 3 (.ready false true) ++ [.ready true false, .ready true false]) 0 =
          some (.ok log) ∧
      (∀ r ∈ ([] : List FileLog) ++ [], r.md5 ≠ "" ∧ ':' ∉ r.md5.toList) ∧
      (∀ cmd ∈ (⟨[]⟩ : CommandLogIndex).entries, ∀ r ∈ cmd.inFiles ++ cmd.outFiles,
        r.md5 ≠ "" ∧ ':' ∉ r.md5.toList) ∧
      hiDisk.isFile (hiDisk.resolve "hi.txt") = true ∧
      hiDisk.contents (hiDisk.resolve "hi.txt") = stdinHi.bytes ∧ hiDisk.md5 = (fun _ => 0) ∧
      (mainInspect hiDisk (mainRun true ⟨[]⟩ (runLog log [] [])).store true "hi.txt").next.map
          (·.command) =
        runLog log [] [] :: (⟨[]⟩ : CommandLogIndex).entries.reverse.filter fun cmd =>
          cmd.inFiles.any (·.md5 == hexdigest ((fun _ => 0) stdinHi.bytes)) := by
  -- the silent turns drain stdin, the socket turns read `A` and the end of the stream
  obtain ⟨st₁, hrun₁, hsent₁, hshut₁⟩ : ∃ st₁, execLoop false byteSends
      (List.replicate 3 (.ready false true)) (ExecState.init echoFrame (some stdinHi) true) =
        .ok st₁ ∧ st₁.sent = stdinHi.bytes ∧ st₁.shutdowns = 1 :=
    execLoop_drains 3 _ ⟨stdinHi, true, .new⟩ rfl ⟨_, rfl, rfl, rfl, rfl, .inl rfl⟩ rfl rfl
      (by decide)
  obtain ⟨hsock₁, hopen₁⟩ := execLoop_stdin_turns_socket 3 true _ _ rfl hrun₁
  obtain ⟨st₂, hrun₂, hend₂⟩ : ∃ st₂, execLoop false byteSends
      [.ready true false, .ready true false] st₁ = .ok st₂ ∧ st₂.cSocketOpen = false :=
    execLoop_ends [(true, false), (true, false)] st₁ _ echoFrame_frames.1 (.inl rfl) hopen₁
      (by rw [hsock₁, List.append_nil]; exact echoFrame_frames.2) (by decide)
  -- the write side was shut, so stdin is out of `active_streams` and the socket turns send nothing
  obtain ⟨side, hside, -, -, -, hs⟩ := execLoop_stdinSound echoFrame stdinHi true _ hrun₁
  obtain ⟨-, -, hoff⟩ := hs.resolve_left (by omega)
  have hsent := (execLoop_idle _ hrun₂ fun s hs' => by
    rw [hside] at hs'; cases hs'; exact hoff).1.trans hsent₁
  have hrun : execLoop false byteSends
      (List.replicate 3 (.ready false true) ++ [.ready true false, .ready true false])
      (ExecState.init echoFrame (some stdinHi) true) = .ok st₂ := by
    rw [execLoop_append, hrun₁]; exact hrun₂
  have hlog := (containerExec_eq_ok (fun _ => 0) "cat" [] [] echoFrame (some stdinHi) true _ 0
    _).mpr ⟨st₂, hrun, hend₂, rfl⟩
  have hne : stdinHi.bytes ≠ [] := by decide
  exact ⟨st₂, _, hrun, hsent, hne, hlog, nofun, nofun, rfl, rfl, rfl,
    piped_file_fanout (fun _ => 0) "cat" [] [] echoFrame stdinHi true _ st₂ hrun hsent hne _ hlog
      [] [] nofun ⟨[]⟩ nofun hiDisk "hi.txt" rfl rfl rfl⟩

end Provenance

end CincanCommand.Frontend
