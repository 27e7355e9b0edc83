import CincanCommand.Inspector.Dependency
import CincanCommand.Source
import Mathlib.Data.List.Dedup

namespace CincanCommand.Inspector

-- What the inspector reads from the machine it runs on: the file system, and the answers of
-- `pathlib` that depend on it (`relative_to` fails with `none`).
structure Host where
  isFile : Path → Bool
  contents : Path → Bytes
  md5 : Bytes → BitVec 128
  relativeTo : Path → Path → Option Path
  resolve : Path → Path

-- `CommandInspector.hash_of`: the md5 of the file's bytes, which its loop feeds to the hash
-- 2048 bytes at a time, or '' when the path is not a regular file.
def hashOf (host : Host) (file : Path) : String :=
  if host.isFile file then hexdigest (host.md5 (host.contents file)) else ""

-- The empty digest stands for exactly the paths that are not regular files.
theorem hashOf_eq_empty_iff (host : Host) (file : Path) :
    hashOf host file = "" ↔ host.isFile file = false := by
  unfold hashOf
  split <;> simp_all [hexdigest_ne_empty]

-- The loop of `hash_of` on the opened file: `chunk = f.read(2048)` and `md5sum.update(chunk)`
-- until a read comes back empty. `fed` is what `md5sum` was fed so far.
def md5Chunks (f : Source) (fed : Bytes) : Bytes :=
  match _h : f.read 2048 with
  | ([], _) => fed
  | (b :: bs, f') => md5Chunks f' (fed ++ b :: bs)
termination_by f.bytes.length
decreasing_by exact Source.read_cons_lt _h

-- `CommandInspector.hash_of` with the file opened as `f`.
def hashOfOpened (host : Host) (file : Path) (f : Source) : String :=
  if host.isFile file then hexdigest (host.md5 (md5Chunks f [])) else ""

theorem md5Chunks_eq (f : Source) (fed : Bytes) : md5Chunks f fed = fed ++ f.bytes := by
  induction f, fed using md5Chunks.induct with
  | case1 f fed f' h =>
      rw [md5Chunks]
      split
      · rw [(Source.read_eq_nil (by decide) h).1, List.append_nil]
      · rename_i heq
        rw [h] at heq
        cases heq
  | case2 f fed b bs f' h ih =>
      have h₂ := f.read_append 2048
      rw [h] at h₂
      rw [md5Chunks]
      split
      · rename_i heq
        rw [h] at heq
        cases heq
      · rename_i heq
        rw [h] at heq
        cases heq
        rw [ih, List.append_assoc, h₂]

-- Read 2048 bytes at a time, however the reads come back, a regular file is digested whole.
theorem hashOfOpened_eq (host : Host) (file : Path) (f : Source)
    (hf : f.bytes = host.contents file) :
    hashOfOpened host file f = hashOf host file := by
  simp [hashOfOpened, hashOf, md5Chunks_eq, hf]

-- A disk whose every path is a regular file holding three bytes, read back in two chunks.
def threeBytes : Host := ⟨fun _ => true, fun _ => [1, 2, 3], fun _ => 0, fun _ _ => none, id⟩

def twoReads : Source := ⟨[[1, 2], [3]], by decide⟩

theorem hashOfOpened_eq_two_reads :
    twoReads.bytes = threeBytes.contents "a.bin" ∧
      hashOfOpened threeBytes "a.bin" twoReads = hashOf threeBytes "a.bin" :=
  ⟨rfl, hashOfOpened_eq threeBytes "a.bin" twoReads rfl⟩

structure CommandInspector where
  log : CommandLogIndex
  workDir : Path

-- `CommandInspector.__work_path`: standard streams as they are, other paths relative to the
-- work directory, or resolved when they are outside it.
def CommandInspector.workPath (insp : CommandInspector) (host : Host) (path : Path) : Path :=
  if "/dev/".isPrefixOf path then path
  else (host.relativeTo path insp.workDir).getD (host.resolve path)

-- `digest or self.hash_of(file)`: an omitted or empty digest falls back to the file on disk.
def digestOr (digest : Option String) (hash : String) : String :=
  match digest with
  | some d => if d = "" then hash else d
  | none => hash

-- `file.as_posix() + ':' + file_digest`, the key of the visited set.
def fileKey (file : Path) (digest : String) : String :=
  file ++ ":" ++ digest

-- One direction of the walk: the flag its nodes carry, the records an entry is matched on,
-- and the records the walk goes on to.
structure Direction where
  out : Bool
  matchSide : CommandLog → List FileLog
  nextSide : CommandLog → List FileLog

def faninDirection : Direction := ⟨false, CommandLog.outFiles, CommandLog.inFiles⟩

def fanoutDirection : Direction := ⟨true, CommandLog.inFiles, CommandLog.outFiles⟩

-- What one walk reads: the store newest first, the digest of a file on disk, and the path a
-- node shows for the path it was reached by.
structure Walk where
  entries : List CommandLog
  hashOf : Path → String
  display : Path → Path
  dir : Direction

def CommandInspector.walk (insp : CommandInspector) (host : Host) (dir : Direction) : Walk :=
  ⟨insp.log.listEntries true, hashOf host, insp.workPath host, dir⟩

-- A call `fanin(file, already_covered, digest)`: the tree, and the visited set it worked on.
abbrev Visit := Path → List String → Option String → Option (FileDependency × List String)

-- `for file in cmd.in_files:`
-- `    cmd_dep.next.append(self.fanin(file.path, already_covered, file.md5))`.
-- `already_covered or set([])` hands the callee a fresh set when ours is empty, and then
-- nothing the callee adds reaches ours.
def visitFiles (visit : Visit) :
    List FileLog → List String → Option (List FileDependency × List String)
  | [], covered => some ([], covered)
  | file :: files, covered => do
    let (dep, seen) ← visit file.path covered (some file.md5)
    let (deps, covered) ← visitFiles visit files (if covered = [] then covered else seen)
    return (dep :: deps, covered)

-- `for cmd in self.log.list_entries(reverse=True)`: an entry with a record of the digest on the
-- matched side becomes a command node over the walks of its records on the other side.
-- (`any(filter(...))` tests the matching records, which are objects and so true.)
def scanEntries (visit : Visit) (dir : Direction) (fileDigest : String) :
    List CommandLog → List String → Option (List CommandDependency × List String)
  | [], covered => some ([], covered)
  | cmd :: cmds, covered =>
    if (dir.matchSide cmd).any (·.md5 == fileDigest) then do
      let (next, covered) ← visitFiles visit (dir.nextSide cmd) covered
      let (deps, covered) ← scanEntries visit dir fileDigest cmds covered
      return (.mk cmd dir.out next :: deps, covered)
    else scanEntries visit dir fileDigest cmds covered

-- The body of `fanin` and `fanout`, allowed `fuel` nested calls.
def Walk.fan (w : Walk) : Nat → Visit
  | 0, _, _, _ => none
  | fuel + 1, file, alreadyCovered, digest =>
    let fileDigest := digestOr digest (w.hashOf file)
    let fileDep := FileDependency.mk (w.display file) fileDigest w.dir.out
    if fileKey file fileDigest ∈ alreadyCovered then some (fileDep [], alreadyCovered)
    else (scanEntries (w.fan fuel) w.dir fileDigest w.entries
        (fileKey file fileDigest :: alreadyCovered)).map
          fun (next, covered) => (fileDep next, covered)

-- The key a record gets when the walk reaches it.
def Walk.recordKey (w : Walk) (r : FileLog) : String :=
  fileKey r.path (digestOr (some r.md5) (w.hashOf r.path))

-- Every key a walk from `file` can meet: the anchor's, and those of all records of the store.
def Walk.keys (w : Walk) (file : Path) (digest : Option String) : List String :=
  fileKey file (digestOr digest (w.hashOf file)) ::
    w.entries.flatMap fun cmd => (cmd.inFiles ++ cmd.outFiles).map w.recordKey

def Walk.bound (w : Walk) (file : Path) (digest : Option String) : Nat :=
  (w.keys file digest).dedup.length + 1

-- A walk from the command line: a fresh visited set, and one nested call per key. The last
-- branch is never taken (`Walk.terminatesWithinKeys`).
def Walk.run (w : Walk) (file : Path) (digest : Option String) : FileDependency :=
  match w.fan (w.bound file digest) file [] digest with
  | some (dep, _) => dep
  | none => .mk (w.display file) (digestOr digest (w.hashOf file)) w.dir.out []

def CommandInspector.fanin (insp : CommandInspector) (host : Host) (file : Path)
    (digest : Option String) : FileDependency :=
  (insp.walk host faninDirection).run file digest

def CommandInspector.fanout (insp : CommandInspector) (host : Host) (file : Path)
    (digest : Option String) : FileDependency :=
  (insp.walk host fanoutDirection).run file digest

section Spec

variable (w : Walk) (fuel : Nat) (file : Path) (covered : List String) (digest : Option String)

theorem Walk.fan_covered (h : fileKey file (digestOr digest (w.hashOf file)) ∈ covered) :
    w.fan (fuel + 1) file covered digest =
      some (.mk (w.display file) (digestOr digest (w.hashOf file)) w.dir.out [], covered) := by
  simp [Walk.fan, h]

theorem Walk.fan_fresh (h : fileKey file (digestOr digest (w.hashOf file)) ∉ covered) :
    w.fan (fuel + 1) file covered digest =
      (scanEntries (w.fan fuel) w.dir (digestOr digest (w.hashOf file)) w.entries
        (fileKey file (digestOr digest (w.hashOf file)) :: covered)).map fun p =>
          (.mk (w.display file) (digestOr digest (w.hashOf file)) w.dir.out p.1, p.2) := by
  simp [Walk.fan, h]

theorem visitFiles_cons_eq_some (visit : Visit) (r : FileLog) (files : List FileLog)
    (deps : List FileDependency) (covered' : List String) :
    visitFiles visit (r :: files) covered = some (deps, covered') ↔
      ∃ dep seen rest, visit r.path covered (some r.md5) = some (dep, seen) ∧
        visitFiles visit files (if covered = [] then covered else seen) = some (rest, covered') ∧
        deps = dep :: rest := by
  simp only [visitFiles, Option.bind_eq_bind, Option.bind_eq_some]
  constructor
  · rintro ⟨⟨dep, seen⟩, h1, ⟨rest, c⟩, h2, h3⟩
    simp only [Option.pure_def, Option.some.injEq, Prod.mk.injEq] at h3
    obtain ⟨rfl, rfl⟩ := h3
    exact ⟨dep, seen, rest, h1, h2, rfl⟩
  · rintro ⟨dep, seen, rest, h1, h2, rfl⟩
    exact ⟨(dep, seen), h1, (rest, covered'), h2, rfl⟩

variable (visit : Visit) (dir : Direction) (d : String) (cmd : CommandLog) (cmds : List CommandLog)

theorem scanEntries_cons_skip (hm : (dir.matchSide cmd).any (·.md5 == d) = false) :
    scanEntries visit dir d (cmd :: cmds) covered = scanEntries visit dir d cmds covered := by
  simp [scanEntries, hm]

theorem scanEntries_cons_match_eq_some (hm : (dir.matchSide cmd).any (·.md5 == d) = true)
    (deps : List CommandDependency) (covered' : List String) :
    scanEntries visit dir d (cmd :: cmds) covered = some (deps, covered') ↔
      ∃ next seen rest, visitFiles visit (dir.nextSide cmd) covered = some (next, seen) ∧
        scanEntries visit dir d cmds seen = some (rest, covered') ∧
        deps = .mk cmd dir.out next :: rest := by
  simp only [scanEntries, hm, if_true, Option.bind_eq_bind, Option.bind_eq_some]
  constructor
  · rintro ⟨⟨next, seen⟩, h1, ⟨rest, c⟩, h2, h3⟩
    simp only [Option.pure_def, Option.some.injEq, Prod.mk.injEq] at h3
    obtain ⟨rfl, rfl⟩ := h3
    exact ⟨next, seen, rest, h1, h2, rfl⟩
  · rintro ⟨next, seen, rest, h1, h2, rfl⟩
    exact ⟨(next, seen), h1, (rest, covered'), h2, rfl⟩

end Spec

end CincanCommand.Inspector
