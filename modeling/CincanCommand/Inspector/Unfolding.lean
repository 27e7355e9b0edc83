import CincanCommand.Inspector.DepthFirst
import CincanCommand.Inspector.Termination

namespace CincanCommand.Inspector

private theorem append_sep_inj (x : Char) :
    ∀ {a c b d : List Char}, x ∉ b → x ∉ d → a ++ x :: b = c ++ x :: d → a = c ∧ b = d
  | [], [], _, _, _, _, h => ⟨rfl, by simpa using h⟩
  | [], y :: c, _, _, hb, _, h => by
      obtain ⟨rfl, rfl⟩ := List.cons.inj h
      exact absurd (by simp) hb
  | y :: a, [], _, _, _, hd, h => by
      obtain ⟨rfl, rfl⟩ := List.cons.inj h
      exact absurd (by simp) hd
  | y :: a, z :: c, _, _, hb, hd, h => by
      rw [List.cons_append, List.cons_append] at h
      obtain ⟨rfl, htail⟩ := List.cons.inj h
      obtain ⟨rfl, rfl⟩ := append_sep_inj x hb hd htail
      exact ⟨rfl, rfl⟩

-- Keys name (path, digest) pairs as long as digests hold no `:`.
theorem fileKey_inj {p p' d d' : String} (hd : ':' ∉ d.toList) (hd' : ':' ∉ d'.toList)
    (h : fileKey p d = fileKey p' d') : p = p' ∧ d = d' := by
  have hl := congrArg String.toList h
  simp only [fileKey, String.toList, String.data_append, List.append_assoc] at hl
  obtain ⟨hp, hd⟩ := append_sep_inj ':' hd hd' hl
  exact ⟨String.ext hp, String.ext hd⟩

theorem colon_not_mem_hashOf (host : Host) (file : Path) : ':' ∉ (hashOf host file).toList := by
  unfold hashOf
  split
  · exact colon_not_mem_hexdigest _
  · simp

theorem colon_not_mem_digestOr {digest : Option String} {hash : String}
    (hdigest : ∀ d, digest = some d → ':' ∉ d.toList) (hhash : ':' ∉ hash.toList) :
    ':' ∉ (digestOr digest hash).toList := by
  unfold digestOr
  split
  · split
    · exact hhash
    · exact hdigest _ rfl
  · exact hhash

theorem digestOr_some_of_ne {d : String} (hd : d ≠ "") (hash : String) :
    digestOr (some d) hash = d := by
  simp [digestOr, hd]

-- The tree of a walk in direction `dir` over the store `entries` (insertion order), stated over
-- its preorder. A command node under a file node is an entry recording the file's digest on
-- the matched side, over the entry's records on the other side with their recorded digests. A
-- file node has no command nodes when an earlier node has its path and digest, and otherwise
-- one for each entry recording its digest on the matched side, newest first.
def Direction.Unfolding (dir : Direction) (entries : List CommandLog) (origin : FileDependency) :
    Prop :=
  (∀ f ∈ origin.fileNodes, f.out = dir.out ∧
    ∀ c ∈ f.next, c.out = dir.out ∧ c.command ∈ entries ∧
      (∃ r ∈ dir.matchSide c.command, r.md5 = f.digest) ∧
      c.next.map (fun g => (g.file, g.digest)) =
        (dir.nextSide c.command).map fun r => (r.path, r.md5)) ∧
  ∀ before f after, origin.fileNodes = before ++ f :: after →
    f.next.map (·.command) =
      if ∃ g ∈ before, g.file = f.file ∧ g.digest = f.digest then []
      else entries.reverse.filter fun cmd => (dir.matchSide cmd).any (·.md5 == f.digest)

section Run

variable (insp : CommandInspector) (host : Host) (dir : Direction) (file : Path)
  (digest : Option String)

-- A walk from the command line is the walk that shows paths as reached, with `__work_path`
-- applied afterwards; that walk obeys the depth-first law from an empty visited set.
theorem CommandInspector.run_origin
    (hside : ∀ cmd, ∀ r ∈ dir.nextSide cmd, r ∈ cmd.inFiles ++ cmd.outFiles) :
    ∃ (origin : FileDependency) (covered : List String),
      (insp.walk host dir).run file digest = origin.mapFile (insp.workPath host) ∧
      origin.file = file ∧ origin.digest = digestOr digest (hashOf host file) ∧
      { insp.walk host dir with display := id }.Visits [] origin.fileNodes covered ∧
      ∀ g ∈ origin.next.flatMap CommandDependency.fileNodes,
        { insp.walk host dir with display := id }.FromRecord g := by
  obtain ⟨covered, hfan, -⟩ := (insp.walk host dir).terminatesWithinKeys hside file digest
  have h := hfan _ le_rfl
  rw [Walk.fan_display] at h
  obtain ⟨⟨origin, covered'⟩, h₀, hmap⟩ := Option.map_eq_some'.mp h
  obtain ⟨hfile, hdigest, hvisits, hfrom⟩ := Walk.fan_sound rfl _ _ _ _ _ _ h₀
  exact ⟨origin, covered', (congrArg Prod.fst hmap).symm, hfile, hdigest, hvisits, hfrom⟩

-- Whatever the store and the disk hold, each command node is an entry of the store matched on
-- its parent's digest, and its file nodes carry the digests the walk gave their records.
theorem CommandInspector.run_children
    (hside : ∀ cmd, ∀ r ∈ dir.nextSide cmd, r ∈ cmd.inFiles ++ cmd.outFiles) :
    ∀ f ∈ ((insp.walk host dir).run file digest).fileNodes, ∀ c ∈ f.next,
      c.command ∈ insp.log.entries ∧ (∃ r ∈ dir.matchSide c.command, r.md5 = f.digest) ∧
      c.next.map (·.digest) =
        (dir.nextSide c.command).map fun r => digestOr (some r.md5) (hashOf host r.path) := by
  obtain ⟨origin, covered, hrun, -, -, ⟨-, -, hlinked⟩, -⟩ :=
    insp.run_origin host dir file digest hside
  intro f hf c hc
  rw [hrun, FileDependency.fileNodes_mapFile, List.mem_map] at hf
  obtain ⟨f₀, hf₀, rfl⟩ := hf
  rw [FileDependency.next_mapFile, List.mem_map] at hc
  obtain ⟨c₀, hc₀, rfl⟩ := hc
  obtain ⟨-, hmem, hany, hpairs⟩ := (hlinked f₀ hf₀).2 c₀ hc₀
  obtain ⟨r, hr, hmd5⟩ := List.any_eq_true.mp hany
  simp only [CommandDependency.command_mapFile, CommandDependency.next_mapFile,
    FileDependency.digest_mapFile, List.map_map]
  refine ⟨?_, ⟨r, hr, by simpa using hmd5⟩, ?_⟩
  · simpa [CommandInspector.walk, CommandLogIndex.listEntries] using hmem
  · have := congrArg (List.map Prod.snd) hpairs
    simp only [List.map_map] at this
    simpa [Function.comp_def] using this

-- With non-empty digests without `:` in the store and an anchor digest without `:`, the
-- tree is the depth-first unfolding of the provenance graph.
theorem CommandInspector.run_unfolding
    (hside : ∀ cmd, ∀ r ∈ dir.nextSide cmd, r ∈ cmd.inFiles ++ cmd.outFiles)
    (hrecords : ∀ cmd ∈ insp.log.entries, ∀ r ∈ cmd.inFiles ++ cmd.outFiles,
      r.md5 ≠ "" ∧ ':' ∉ r.md5.toList)
    (hdigest : ∀ d, digest = some d → ':' ∉ d.toList) :
    ∃ origin, (insp.walk host dir).run file digest = origin.mapFile (insp.workPath host) ∧
      origin.file = file ∧ origin.digest = digestOr digest (hashOf host file) ∧
      dir.Unfolding insp.log.entries origin := by
  obtain ⟨origin, covered, hrun, hfile, hdig, ⟨hdf, -, hlinked⟩, hfrom⟩ :=
    insp.run_origin host dir file digest hside
  have hentries : ∀ {cmd}, cmd ∈ (insp.walk host dir).entries ↔ cmd ∈ insp.log.entries := by
    simp [CommandInspector.walk, CommandLogIndex.listEntries]
  -- every node's digest is the anchor's or a recorded one, and none holds `:`
  have hcolon : ∀ g ∈ origin.fileNodes, ':' ∉ g.digest.toList := by
    intro g hg
    rw [FileDependency.fileNodes_eq, List.mem_cons] at hg
    rcases hg with rfl | hg
    · exact hdig ▸ colon_not_mem_digestOr hdigest (colon_not_mem_hashOf host file)
    · obtain ⟨cmd, hcmd, r, hr, -, hg⟩ := hfrom g hg
      have := hrecords cmd (hentries.mp hcmd) r (hside cmd r hr)
      exact (hg.trans (digestOr_some_of_ne this.1 _)) ▸ this.2
  refine ⟨origin, hrun, hfile, hdig, fun f hf => ⟨(hlinked f hf).1, fun c hc => ?_⟩, ?_⟩
  · obtain ⟨hout, hmem, hany, hpairs⟩ := (hlinked f hf).2 c hc
    obtain ⟨r, hr, hmd5⟩ := List.any_eq_true.mp hany
    refine ⟨hout, hentries.mp hmem, ⟨r, hr, by simpa using hmd5⟩, hpairs.trans ?_⟩
    refine List.map_congr_left fun r hr => ?_
    simp [digestOr_some_of_ne (hrecords _ (hentries.mp hmem) r (hside _ r hr)).1]
  · intro before f after hsplit
    have hf : f ∈ origin.fileNodes := by simp [hsplit]
    have hcond : (f.key ∈ ([] : List String) ∨ ∃ g ∈ before, g.key = f.key) ↔
        ∃ g ∈ before, g.file = f.file ∧ g.digest = f.digest := by
      simp only [List.not_mem_nil, false_or]
      refine exists_congr fun g => and_congr_right fun hg =>
        ⟨fun h => ?_, fun ⟨h₁, h₂⟩ => ?_⟩
      · exact fileKey_inj (hcolon g (by simp [hsplit, hg])) (hcolon f hf) h
      · simp [FileDependency.key, h₁, h₂]
    have := Walk.depthFirst_split _ (hsplit ▸ hdf)
    simp only [hcond] at this
    simpa [Walk.matching, CommandInspector.walk, CommandLogIndex.listEntries] using this

end Run

theorem fanin_depth_first (insp : CommandInspector) (host : Host) (file : Path)
    (digest : Option String)
    (hrecords : ∀ cmd ∈ insp.log.entries, ∀ r ∈ cmd.inFiles ++ cmd.outFiles,
      r.md5 ≠ "" ∧ ':' ∉ r.md5.toList)
    (hdigest : ∀ d, digest = some d → ':' ∉ d.toList) :
    ∃ origin, insp.fanin host file digest = origin.mapFile (insp.workPath host) ∧
      origin.file = file ∧ origin.digest = digestOr digest (hashOf host file) ∧
      faninDirection.Unfolding insp.log.entries origin :=
  insp.run_unfolding host faninDirection file digest (fun _ _ hr => List.mem_append_left _ hr)
    hrecords hdigest

-- The store of the spec's scenario: `cat a.txt` read `a.txt` and wrote standard output.
def catLog : CommandLog :=
  { CommandLog.new ["cat", "a.txt"] with
    inFiles := [⟨"a.txt", "d1"⟩], outFiles := [⟨"/dev/stdout", "d2"⟩] }

def catInspector : CommandInspector := ⟨⟨[catLog]⟩, "/work"⟩

-- A disk on which no path is a regular file, outside the work directory.
def bareHost : Host := ⟨fun _ => false, fun _ => [], fun _ => 0, fun _ _ => none, id⟩

theorem fanin_depth_first_cat :
    (∀ cmd ∈ catInspector.log.entries, ∀ r ∈ cmd.inFiles ++ cmd.outFiles,
      r.md5 ≠ "" ∧ ':' ∉ r.md5.toList) ∧
    (∀ d, some "d2" = some d → ':' ∉ d.toList) ∧
    ∃ origin, catInspector.fanin bareHost "/dev/stdout" (some "d2") =
        origin.mapFile (catInspector.workPath bareHost) ∧
      origin.file = "/dev/stdout" ∧
      origin.digest = digestOr (some "d2") (hashOf bareHost "/dev/stdout") ∧
      faninDirection.Unfolding catInspector.log.entries origin :=
  have h₁ : ∀ cmd ∈ catInspector.log.entries, ∀ r ∈ cmd.inFiles ++ cmd.outFiles,
      r.md5 ≠ "" ∧ ':' ∉ r.md5.toList := by decide
  have h₂ : ∀ d, some "d2" = some d → ':' ∉ d.toList := by rintro _ ⟨⟩; decide
  ⟨h₁, h₂, fanin_depth_first catInspector bareHost "/dev/stdout" (some "d2") h₁ h₂⟩

-- `fanout` is the same unfolding with the sides swapped: command nodes are the entries that
-- read the file, over the files they wrote.
theorem fanout_depth_first (insp : CommandInspector) (host : Host) (file : Path)
    (digest : Option String)
    (hrecords : ∀ cmd ∈ insp.log.entries, ∀ r ∈ cmd.inFiles ++ cmd.outFiles,
      r.md5 ≠ "" ∧ ':' ∉ r.md5.toList)
    (hdigest : ∀ d, digest = some d → ':' ∉ d.toList) :
    ∃ origin, insp.fanout host file digest = origin.mapFile (insp.workPath host) ∧
      origin.file = file ∧ origin.digest = digestOr digest (hashOf host file) ∧
      fanoutDirection.Unfolding insp.log.entries origin :=
  insp.run_unfolding host fanoutDirection file digest (fun _ _ hr => List.mem_append_right _ hr)
    hrecords hdigest

theorem fanout_depth_first_cat :
    (∀ cmd ∈ catInspector.log.entries, ∀ r ∈ cmd.inFiles ++ cmd.outFiles,
      r.md5 ≠ "" ∧ ':' ∉ r.md5.toList) ∧
    (∀ d, some "d1" = some d → ':' ∉ d.toList) ∧
    ∃ origin, catInspector.fanout bareHost "a.txt" (some "d1") =
        origin.mapFile (catInspector.workPath bareHost) ∧
      origin.file = "a.txt" ∧ origin.digest = digestOr (some "d1") (hashOf bareHost "a.txt") ∧
      fanoutDirection.Unfolding catInspector.log.entries origin :=
  have h₁ : ∀ cmd ∈ catInspector.log.entries, ∀ r ∈ cmd.inFiles ++ cmd.outFiles,
      r.md5 ≠ "" ∧ ':' ∉ r.md5.toList := by decide
  have h₂ : ∀ d, some "d1" = some d → ':' ∉ d.toList := by rintro _ ⟨⟩; decide
  ⟨h₁, h₂, fanout_depth_first catInspector bareHost "a.txt" (some "d1") h₁ h₂⟩

-- The root's command nodes in direction `dir`: every entry with a record of the root's digest
-- on the matched side, newest first.
theorem Direction.Unfolding.root_commands {dir : Direction} {entries : List CommandLog}
    {origin : FileDependency} (h : dir.Unfolding entries origin) :
    origin.next.map (·.command) =
      entries.reverse.filter fun cmd => (dir.matchSide cmd).any (·.md5 == origin.digest) := by
  simpa using h.2 [] origin _ origin.fileNodes_eq

-- From the command line, the commands under the root are the entries matched on the anchor's
-- digest, newest first.
theorem CommandInspector.run_root_commands (insp : CommandInspector) (host : Host)
    (dir : Direction) (file : Path) (digest : Option String)
    (hside : ∀ cmd, ∀ r ∈ dir.nextSide cmd, r ∈ cmd.inFiles ++ cmd.outFiles)
    (hrecords : ∀ cmd ∈ insp.log.entries, ∀ r ∈ cmd.inFiles ++ cmd.outFiles,
      r.md5 ≠ "" ∧ ':' ∉ r.md5.toList)
    (hdigest : ∀ d, digest = some d → ':' ∉ d.toList) :
    ((insp.walk host dir).run file digest).next.map (·.command) =
      insp.log.entries.reverse.filter fun cmd =>
        (dir.matchSide cmd).any (·.md5 == digestOr digest (hashOf host file)) := by
  obtain ⟨origin, hrun, -, hdig, hunf⟩ := insp.run_unfolding host dir file digest hside hrecords
    hdigest
  rw [hrun, FileDependency.next_mapFile, List.map_map, ← hdig, ← hunf.root_commands]
  simp only [Function.comp_def, CommandDependency.command_mapFile]

-- `fanin` and `fanout` see the same edges of the provenance graph: a command that `fanin`
-- shows producing the file is one `fanout` shows consuming each of its inputs.
theorem fanin_fanout_dual (insp : CommandInspector) (host : Host) (file : Path)
    (digest : Option String)
    (hrecords : ∀ cmd ∈ insp.log.entries, ∀ r ∈ cmd.inFiles ++ cmd.outFiles,
      r.md5 ≠ "" ∧ ':' ∉ r.md5.toList)
    (hdigest : ∀ d, digest = some d → ':' ∉ d.toList) :
    ∀ c ∈ (insp.fanin host file digest).next, ∀ r ∈ c.command.inFiles,
      c.command ∈ (insp.fanout host r.path (some r.md5)).next.map (·.command) := by
  obtain ⟨origin, hrun, -, -, hunf⟩ := insp.run_unfolding host faninDirection file digest
    (fun _ _ hr => List.mem_append_left _ hr) hrecords hdigest
  intro c hc r hr
  rw [CommandInspector.fanin, hrun, FileDependency.next_mapFile, List.mem_map] at hc
  obtain ⟨c, hc, rfl⟩ := hc
  rw [CommandDependency.command_mapFile] at hr ⊢
  have hmem := ((hunf.1 origin (by simp [origin.fileNodes_eq])).2 c hc).2.1
  have hr' := hrecords _ hmem r (List.mem_append_left _ hr)
  rw [CommandInspector.fanout, insp.run_root_commands host fanoutDirection r.path (some r.md5)
    (fun _ _ hr => List.mem_append_right _ hr) hrecords (fun d hd => by cases hd; exact hr'.2),
    digestOr_some_of_ne hr'.1, List.mem_filter, List.mem_reverse]
  exact ⟨hmem, List.any_eq_true.mpr ⟨r, hr, by simp⟩⟩

theorem fanin_fanout_dual_cat :
    (∀ cmd ∈ catInspector.log.entries, ∀ r ∈ cmd.inFiles ++ cmd.outFiles,
      r.md5 ≠ "" ∧ ':' ∉ r.md5.toList) ∧
    (∀ d, some "d2" = some d → ':' ∉ d.toList) ∧
    ∀ c ∈ (catInspector.fanin bareHost "/dev/stdout" (some "d2")).next, ∀ r ∈ c.command.inFiles,
      c.command ∈ (catInspector.fanout bareHost r.path (some r.md5)).next.map (·.command) :=
  have h₁ : ∀ cmd ∈ catInspector.log.entries, ∀ r ∈ cmd.inFiles ++ cmd.outFiles,
      r.md5 ≠ "" ∧ ':' ∉ r.md5.toList := by decide
  have h₂ : ∀ d, some "d2" = some d → ':' ∉ d.toList := by rintro _ ⟨⟩; decide
  ⟨h₁, h₂, fanin_fanout_dual catInspector bareHost "/dev/stdout" (some "d2") h₁ h₂⟩

end CincanCommand.Inspector
