import CincanCommand.Frontend.Runs
import Mathlib.Data.String.Basic

namespace CincanCommand.Frontend

-- A stream's record: its path with the digest of what went through it, if anything did.
def streamFile (md5 : Bytes → BitVec 128) (path : Path) (data : Bytes) : List FileLog :=
  if data = [] then [] else [⟨path, hexdigest (md5 data)⟩]

-- The log of `command` when it was sent `stdinSent` on stdin (`none` without `read_stdin`)
-- and wrote `frames`.
def execLog (md5 : Bytes → BitVec 128) (bufferOutput : Bool) (command : List String)
    (exitCode : Int) (stdinSent : Option Bytes) (writeStdout : Bool)
    (frames : List (Nat × Bytes)) : CommandLog :=
  let stdout := if writeStdout then payloadsOf 1 frames else []
  let stderr := payloadsOf 2 frames
  { command, exitCode
    inFiles :=
      if exitCode = 0 then ((stdinSent.map (streamFile md5 "/dev/stdin")).getD []) else []
    outFiles :=
      if exitCode = 0 then
        streamFile md5 "/dev/stdout" stdout ++ streamFile md5 "/dev/stderr" stderr
      else []
    stdin := []
    stdout := if bufferOutput then stdout else []
    stderr := if bufferOutput then stderr else [] }

section Refinement

variable {bufferOutput : Bool} {snd : Sender} {st st' : ExecState}

theorem stdinBranch_raw (snd : Sender) (side : StdinSide) (st : ExecState) :
    (stdinBranch snd side st).stdin.map (·.stream.raw) = some side.stream.raw := by
  unfold stdinBranch
  split
  · rfl
  · obtain ⟨n, -, h⟩ := Sender.sendAll_eq snd _ 0 _
    rw [h]
    rfl

-- No turn touches `stdin_s.raw`.
theorem iteration_stdin_raw (sel : Selected) (h : iteration bufferOutput snd st sel = .ok st') :
    st'.stdin.map (·.stream.raw) = st.stdin.map (·.stream.raw) := by
  cases sel with
  | unsupported =>
      simp only [iteration] at h
      split at h
      · rename_i side hside
        split at h
        · cases h; simp [hside]
        · cases h
      · cases h
  | ready sockReady stdinReady =>
      obtain ⟨st₁, h₁, rfl⟩ := map_eq_ok h
      have hstdin : st₁.stdin = st.stdin := by
        split at h₁
        · exact (socketBranch_keeps_stdin h₁).1
        · cases h₁; rfl
      rw [← hstdin]
      unfold stdinTurn
      split
      · rename_i side hside
        split
        · rw [stdinBranch_raw, hside]; rfl
        · rfl
      · rfl

-- What the log reads of the stdin side when a run stops: the record of the bytes that reached
-- the container, which are the first bytes of stdin, and nothing buffered.
theorem execLoop_stdin_log (cSocket : Source) (stdin : Option Source) (writeStdout : Bool)
    (sels : List Selected)
    (h : execLoop bufferOutput snd sels (ExecState.init cSocket stdin writeStdout) = .ok st) :
    (∀ s, stdin = some s → st.sent <+: s.bytes) ∧
      (∀ md5, streamRecord md5 "/dev/stdin" (st.stdin.map (·.stream)) =
        ((stdin.map fun _ => st.sent).map (streamFile md5 "/dev/stdin")).getD []) ∧
      (st.stdin.map (·.stream.raw)).getD [] = [] := by
  have hraw : st.stdin.map (·.stream.raw) = stdin.map fun _ => [] := by
    refine execLoop_induction (fun s => s.stdin.map (·.stream.raw) = stdin.map fun _ => [])
      (fun _ sel _ hs _ hi => (iteration_stdin_raw sel hi).trans hs) sels ?_ h
    cases stdin <;> rfl
  cases stdin with
  | none =>
      obtain hnone : st.stdin = none := by simpa using hraw
      exact ⟨by simp, by simp [hnone], by simp [hnone]⟩
  | some stdin =>
      obtain ⟨side, hside, hsent, hlen, hmd5, -⟩ :=
        execLoop_stdinSound cSocket stdin writeStdout sels h
      refine ⟨fun s hs => ?_, fun md5 => ?_, by simpa [hside] using hraw⟩
      · cases hs; exact ⟨_, hsent⟩
      · simp [hside, streamRecord, streamFile, hlen, hmd5]

-- A run over data frames followed by the end of the stream, or by an empty frame, that returns
-- a log returns the one `execLog` gives for those frames and the bytes the socket accepted from
-- stdin, a prefix of stdin.
theorem containerExec_log (md5 : Bytes → BitVec 128) (name : String) (cmdArgs cmd : List String)
    (frames : List (Nat × Bytes)) {tail : Bytes}
    (hframes : ∀ f ∈ frames, f.1 < 256 ∧ f.2.length < 2 ^ 56 ∧ f.2 ≠ []) (htail : StreamEnd tail)
    (cSocket : Source) (hsock : cSocket.bytes = frames.flatMap encodeFrame ++ tail)
    (stdin : Option Source) (writeStdout : Bool) (sels : List Selected) (exitCode : Int)
    (log : CommandLog)
    (h : containerExec md5 bufferOutput snd name cmdArgs cmd cSocket stdin writeStdout sels
      exitCode = some (.ok log)) :
    ∃ st, execLoop bufferOutput snd sels (ExecState.init cSocket stdin writeStdout) = .ok st ∧
      (∀ s, stdin = some s → st.sent <+: s.bytes) ∧
      log = execLog md5 bufferOutput ([name] ++ if cmdArgs = [] then cmd else cmdArgs) exitCode
        (stdin.map fun _ => st.sent) writeStdout frames := by
  obtain ⟨st, hrun, hend, rfl⟩ := (containerExec_eq_ok md5 name cmdArgs cmd _ _ _ _ _ _).mp h
  obtain ⟨hout, herr⟩ := execLoop_outputs hframes htail cSocket hsock stdin sels hrun hend
  obtain ⟨hpre, hrecord, hraw⟩ := execLoop_stdin_log cSocket stdin writeStdout sels hrun
  refine ⟨st, hrun, hpre, ?_⟩
  cases bufferOutput <;> cases writeStdout <;> by_cases h0 : exitCode = 0 <;>
    simp [collectLog, execLog, h0, hout, herr, hrecord, hraw, streamRecord_carrying, streamFile,
      CommandLog.new]

-- The select loop refines `execLog`, the stream-level description. Whatever the chunking of the
-- socket and of stdin, the partial sends and the order of `select`'s answers, a run over
-- well-formed frames that returns a log returns the one `execLog` gives for those frames and
-- the bytes the socket accepted from stdin in that run, which are the first bytes of stdin.
theorem containerExec_refines (md5 : Bytes → BitVec 128) (name : String)
    (cmdArgs cmd : List String) (frames : List (Nat × Bytes))
    (hframes : ∀ f ∈ frames, f.1 < 256 ∧ f.2.length < 2 ^ 56 ∧ f.2 ≠ [])
    (cSocket : Source) (hsock : cSocket.bytes = frames.flatMap encodeFrame) (stdin : Option Source)
    (writeStdout : Bool) (sels : List Selected) (st : ExecState)
    (hrun : execLoop bufferOutput snd sels (ExecState.init cSocket stdin writeStdout) = .ok st)
    (exitCode : Int) (log : CommandLog)
    (h : containerExec md5 bufferOutput snd name cmdArgs cmd cSocket stdin writeStdout sels
      exitCode = some (.ok log)) :
    (∀ s, stdin = some s → st.sent <+: s.bytes) ∧
      log = execLog md5 bufferOutput ([name] ++ if cmdArgs = [] then cmd else cmdArgs) exitCode
        (stdin.map fun _ => st.sent) writeStdout frames := by
  obtain ⟨st', hrun', hlog⟩ := containerExec_log md5 name cmdArgs cmd frames hframes (.inl rfl)
    cSocket (by rw [List.append_nil]; exact hsock) stdin writeStdout sels exitCode log h
  obtain rfl : st' = st := Except.ok.inj (hrun'.symm.trans hrun)
  exact hlog

theorem containerExec_refines_echo :
    (∀ f ∈ [((1 : Nat), ([65] : Bytes))], f.1 < 256 ∧ f.2.length < 2 ^ 56 ∧ f.2 ≠ []) ∧
      echoFrame.bytes = [((1 : Nat), ([65] : Bytes))].flatMap encodeFrame ∧
      ∃ st log, execLoop true byteSends [.ready false true, .ready true true, .ready true false]
          (ExecState.init echoFrame (some stdinHi) true) = .ok st ∧
        containerExec (fun _ => 0) true byteSends "cat" [] [] echoFrame (some stdinHi) true
          [.ready false true, .ready true true, .ready true false] 0 = some (.ok log) ∧
        (∀ s, some stdinHi = some s → st.sent <+: s.bytes) ∧
          log = execLog (fun _ => 0) true ["cat"] 0 (some st.sent) true [(1, [65])] := by
  obtain ⟨hframes, hsock⟩ := echoFrame_frames
  obtain ⟨log, h⟩ := echoFrame_run true byteSends (some stdinHi)
  obtain ⟨st, hrun, -, -⟩ := (containerExec_eq_ok (fun _ => 0) "cat" [] [] _ _ _ _ _ _).mp h
  exact ⟨hframes, hsock, st, log, hrun, h, containerExec_refines (fun _ => 0) "cat" [] [] _
    hframes echoFrame hsock (some stdinHi) true _ st hrun 0 _ h⟩

-- `stdin_s.raw` is never extended, so even with `buffer_output` set the log keeps none of stdin:
-- `log.stdin` is empty after every run, however much of stdin reached the container.
theorem log_stdin_empty (md5 : Bytes → BitVec 128) (name : String) (cmdArgs cmd : List String)
    (cSocket : Source) (stdin : Option Source) (writeStdout : Bool) (sels : List Selected)
    (exitCode : Int) (log : CommandLog)
    (h : containerExec md5 bufferOutput snd name cmdArgs cmd cSocket stdin writeStdout sels
      exitCode = some (.ok log)) :
    log.stdin = [] := by
  obtain ⟨st, hrun, -, rfl⟩ := (containerExec_eq_ok md5 name cmdArgs cmd _ _ _ _ _ _).mp h
  obtain ⟨-, -, hraw⟩ := execLoop_stdin_log cSocket stdin writeStdout sels hrun
  rw [collectLog_stdin]
  cases bufferOutput
  exacts [rfl, hraw]

theorem log_stdin_empty_hi :
    ∃ log, containerExec (fun _ => 0) true byteSends "cat" [] [] echoFrame (some stdinHi) true
        [.ready false true, .ready true true, .ready true false] 0 = some (.ok log) ∧
      log.stdin = [] := by
  obtain ⟨log, h⟩ := echoFrame_run true byteSends (some stdinHi)
  exact ⟨log, h, log_stdin_empty (fun _ => 0) "cat" [] [] echoFrame _ true _ 0 log h⟩

-- An empty frame ends the log: whatever the container sends after one is never read. The log
-- of a run that returns is the one `execLog` gives for the frames before it.
theorem empty_frame_drops_rest (md5 : Bytes → BitVec 128) (name : String)
    (cmdArgs cmd : List String) (frames : List (Nat × Bytes))
    (hframes : ∀ f ∈ frames, f.1 < 256 ∧ f.2.length < 2 ^ 56 ∧ f.2 ≠ []) (t : Nat) (ht : t < 256)
    (after : Bytes) (cSocket : Source)
    (hsock : cSocket.bytes = frames.flatMap encodeFrame ++ encodeFrame (t, []) ++ after)
    (stdin : Option Source) (writeStdout : Bool) (sels : List Selected) (exitCode : Int)
    (log : CommandLog)
    (h : containerExec md5 bufferOutput snd name cmdArgs cmd cSocket stdin writeStdout sels
      exitCode = some (.ok log)) :
    ∃ sent : Bytes, (∀ s, stdin = some s → sent <+: s.bytes) ∧
      log = execLog md5 bufferOutput ([name] ++ if cmdArgs = [] then cmd else cmdArgs) exitCode
        (stdin.map fun _ => sent) writeStdout frames := by
  obtain ⟨st, -, hlog⟩ := containerExec_log md5 name cmdArgs cmd frames hframes
    (.inr ⟨t, after, ht, rfl⟩) cSocket (by rw [hsock, List.append_assoc]) stdin writeStdout sels
    exitCode log h
  exact ⟨st.sent, hlog⟩

-- `A` on stdout, an empty stdout frame, then `B` on stdout.
def echoEmptyEcho : Source :=
  ⟨[encodeFrame (1, [65]) ++ encodeFrame (1, []) ++ encodeFrame (1, [66])], by decide⟩

-- A run that reads `A` and then the empty frame, which ends it.
theorem echoEmptyEcho_run (bufferOutput : Bool) :
    ∃ st, execLoop bufferOutput byteSends [.ready true false, .ready true false]
      (ExecState.init echoEmptyEcho none true) = .ok st ∧ st.cSocketOpen = false :=
  execLoop_ends [(true, false), (true, false)] _ _ echoFrame_frames.1
    (.inr ⟨1, encodeFrame (1, [66]), by decide, rfl⟩) rfl (by decide) (by decide)

theorem empty_frame_drops_rest_echo :
    (∀ f ∈ [((1 : Nat), ([65] : Bytes))], f.1 < 256 ∧ f.2.length < 2 ^ 56 ∧ f.2 ≠ []) ∧
      (1 : Nat) < 256 ∧
      echoEmptyEcho.bytes = [((1 : Nat), ([65] : Bytes))].flatMap encodeFrame ++
        encodeFrame (1, []) ++ encodeFrame (1, [66]) ∧
      ∃ log, containerExec (fun _ => 0) true byteSends "cat" [] [] echoEmptyEcho none true
          [.ready true false, .ready true false] 0 = some (.ok log) ∧
        ∃ sent : Bytes, (∀ s, (none : Option Source) = some s → sent <+: s.bytes) ∧
          log = execLog (fun _ => 0) true ["cat"] 0 none true [(1, [65])] := by
  have hsock : echoEmptyEcho.bytes = [((1 : Nat), ([65] : Bytes))].flatMap encodeFrame ++
      encodeFrame (1, []) ++ encodeFrame (1, [66]) := by decide
  obtain ⟨st, hrun, hend⟩ := echoEmptyEcho_run true
  have h := (containerExec_eq_ok (fun _ => 0) "cat" [] [] echoEmptyEcho none true _ 0 _).mpr
    ⟨st, hrun, hend, rfl⟩
  exact ⟨echoFrame_frames.1, by decide, hsock, _, h, empty_frame_drops_rest (fun _ => 0) "cat" []
    [] _ echoFrame_frames.1 1 (by decide) _ echoEmptyEcho hsock none true _ 0 _ h⟩

end Refinement

section Run

-- `path.as_posix().startswith('/dev/')`, by which `download_files` passes over the records of
-- the standard streams.
def isDevPath (path : Path) : Bool := "/dev/".toList.isPrefixOf path.toList

-- `ToolImage.__run` once `__container_exec` returned `log`: the records of the files uploaded
-- into the container join its inputs and, when the command succeeded, the records of the files
-- downloaded from it join its outputs.
def runLog (log : CommandLog) (uploaded downloaded : List FileLog) : CommandLog :=
  let log := { log with inFiles := log.inFiles ++ uploaded }
  if log.exitCode = 0 then { log with outFiles := log.outFiles ++ downloaded } else log

variable {bufferOutput : Bool} {snd : Sender}

@[simp] theorem runLog_command (log : CommandLog) (uploaded downloaded : List FileLog) :
    (runLog log uploaded downloaded).command = log.command := by
  unfold runLog; dsimp only; split_ifs <;> rfl

@[simp] theorem runLog_exitCode (log : CommandLog) (uploaded downloaded : List FileLog) :
    (runLog log uploaded downloaded).exitCode = log.exitCode := by
  unfold runLog; dsimp only; split_ifs <;> rfl

@[simp] theorem runLog_stdout (log : CommandLog) (uploaded downloaded : List FileLog) :
    (runLog log uploaded downloaded).stdout = log.stdout := by
  unfold runLog; dsimp only; split_ifs <;> rfl

@[simp] theorem runLog_stderr (log : CommandLog) (uploaded downloaded : List FileLog) :
    (runLog log uploaded downloaded).stderr = log.stderr := by
  unfold runLog; dsimp only; split_ifs <;> rfl

@[simp] theorem runLog_inFiles (log : CommandLog) (uploaded downloaded : List FileLog) :
    (runLog log uploaded downloaded).inFiles = log.inFiles ++ uploaded := by
  unfold runLog; dsimp only; split_ifs <;> rfl

@[simp] theorem runLog_outFiles (log : CommandLog) (uploaded downloaded : List FileLog) :
    (runLog log uploaded downloaded).outFiles =
      if log.exitCode = 0 then log.outFiles ++ downloaded else log.outFiles := by
  unfold runLog; dsimp only; split_ifs <;> rfl

-- Every record `__container_exec` adds is a standard stream's.
theorem containerExec_outFiles_dev {md5 : Bytes → BitVec 128} {name : String}
    {cmdArgs cmd : List String} {cSocket : Source} {stdin : Option Source} {writeStdout : Bool}
    {sels : List Selected} {exitCode : Int} {log : CommandLog}
    (h : containerExec md5 bufferOutput snd name cmdArgs cmd cSocket stdin writeStdout sels
      exitCode = some (.ok log)) :
    log.exitCode = exitCode ∧ ∀ f ∈ log.outFiles, isDevPath f.path = true := by
  obtain ⟨st, -, -, rfl⟩ := (containerExec_eq_ok md5 name cmdArgs cmd _ _ _ _ _ _).mp h
  refine ⟨collectLog_exitCode .., fun f hf => ?_⟩
  simp only [collectLog_outFiles, CommandLog.new] at hf
  split_ifs at hf
  · simp only [List.nil_append, List.mem_append] at hf
    rcases hf with hf | hf <;> rw [path_of_mem_streamRecord hf] <;> decide
  · cases hf

end Run

end CincanCommand.Frontend
