import CincanCommand.Inspector.Fan

namespace CincanCommand.Inspector

section Display

variable (display : Path → Path) {visit visit' : Visit}

theorem visitFiles_map
    (h : ∀ file covered digest, visit' file covered digest =
      (visit file covered digest).map (Prod.map (FileDependency.mapFile display) id)) :
    ∀ files covered, visitFiles visit' files covered =
      (visitFiles visit files covered).map (Prod.map (List.map (FileDependency.mapFile display)) id)
  | [], _ => rfl
  | r :: files, covered => by
      simp only [visitFiles, h]
      cases visit r.path covered (some r.md5) with
      | none => rfl
      | some p =>
          simp [visitFiles_map h files]
          cases visitFiles visit files (if covered = [] then covered else p.2) <;> rfl

theorem scanEntries_map
    (h : ∀ file covered digest, visit' file covered digest =
      (visit file covered digest).map (Prod.map (FileDependency.mapFile display) id))
    (dir : Direction) (d : String) :
    ∀ cmds covered, scanEntries visit' dir d cmds covered =
      (scanEntries visit dir d cmds covered).map
        (Prod.map (List.map (CommandDependency.mapFile display)) id)
  | [], _ => rfl
  | cmd :: cmds, covered => by
      by_cases hm : (dir.matchSide cmd).any (·.md5 == d)
      · simp only [scanEntries, hm, if_true, visitFiles_map display h]
        cases visitFiles visit (dir.nextSide cmd) covered with
        | none => rfl
        | some p =>
            simp [scanEntries_map h dir d cmds]
            cases scanEntries visit dir d cmds p.2 <;> rfl
      · simp only [scanEntries, hm]
        exact scanEntries_map h dir d cmds covered

-- A walk is the walk that shows every path as reached, with the paths mapped afterwards.
theorem Walk.fan_display (w : Walk) : ∀ fuel file covered digest,
    w.fan fuel file covered digest =
      ({ w with display := id }.fan fuel file covered digest).map
        (Prod.map (FileDependency.mapFile w.display) id)
  | 0, _, _, _ => rfl
  | fuel + 1, file, covered, digest => by
      by_cases hk : fileKey file (digestOr digest (w.hashOf file)) ∈ covered
      · rw [w.fan_covered _ _ _ _ hk, Walk.fan_covered { w with display := id } _ _ _ _ hk]
        simp
      · rw [w.fan_fresh _ _ _ _ hk, Walk.fan_fresh { w with display := id } _ _ _ _ hk,
          scanEntries_map w.display (Walk.fan_display w fuel)]
        cases scanEntries ({ w with display := id }.fan fuel) w.dir _ w.entries _ <;> simp

theorem Walk.run_display (w : Walk) (file : Path) (digest : Option String) :
    w.run file digest = ({ w with display := id }.run file digest).mapFile w.display := by
  have hbound : { w with display := id }.bound file digest = w.bound file digest := rfl
  unfold Walk.run
  rw [hbound, Walk.fan_display]
  cases { w with display := id }.fan (w.bound file digest) file [] digest with
  | none => simp [FileDependency.mapFile, CommandDependency.mapFileList]
  | some p => rfl

-- `__work_path` only relabels: whatever the store, the disk and the anchor, one tree serves
-- every work directory, its paths passed through that directory's `__work_path`. The commands
-- found, and which repeated files are cut short, do not depend on the work directory.
theorem work_dir_only_relabels (log : CommandLogIndex) (host : Host) (file : Path)
    (digest : Option String) :
    ∃ faninTree fanoutTree : FileDependency, ∀ workDir : Path,
      (CommandInspector.mk log workDir).fanin host file digest =
          faninTree.mapFile ((CommandInspector.mk log workDir).workPath host) ∧
        (CommandInspector.mk log workDir).fanout host file digest =
          fanoutTree.mapFile ((CommandInspector.mk log workDir).workPath host) :=
  ⟨Walk.run ⟨log.listEntries true, hashOf host, id, faninDirection⟩ file digest,
    Walk.run ⟨log.listEntries true, hashOf host, id, fanoutDirection⟩ file digest,
    fun _ => ⟨Walk.run_display _ file digest, Walk.run_display _ file digest⟩⟩

end Display

-- The visited-set key of a node, when the node shows the path it was reached by.
def FileDependency.key (f : FileDependency) : String :=
  fileKey f.file f.digest

-- The visited set after walking `nodes` in preorder from `seen`: each node not yet visited
-- adds its key.
def afterVisits : List String → List FileDependency → List String
  | seen, [] => seen
  | seen, f :: rest => afterVisits (if f.key ∈ seen then seen else f.key :: seen) rest

theorem afterVisits_append (l₁ l₂ : List FileDependency) :
    ∀ seen, afterVisits seen (l₁ ++ l₂) = afterVisits (afterVisits seen l₁) l₂ := by
  induction l₁ with
  | nil => intro; rfl
  | cons f l₁ ih => intro seen; exact ih _

theorem mem_afterVisits (k : String) (nodes : List FileDependency) :
    ∀ seen, k ∈ afterVisits seen nodes ↔ k ∈ seen ∨ ∃ g ∈ nodes, g.key = k := by
  induction nodes with
  | nil => simp [afterVisits]
  | cons f nodes ih =>
      intro seen
      rw [afterVisits, ih]
      simp only [List.mem_cons, exists_eq_or_imp]
      split
      · rename_i hf
        constructor
        · rintro (h | h)
          exacts [.inl h, .inr (.inr h)]
        · rintro (h | rfl | h)
          exacts [.inl h, .inl hf, .inr h]
      · rw [List.mem_cons]
        constructor
        · rintro ((rfl | h) | h)
          exacts [.inr (.inl rfl), .inl h, .inr (.inr h)]
        · rintro (h | rfl | h)
          exacts [.inl (.inr h), .inl (.inl rfl), .inr h]

theorem afterVisits_ne_nil (nodes : List FileDependency) :
    ∀ {seen : List String}, seen ≠ [] → afterVisits seen nodes ≠ [] := by
  induction nodes with
  | nil => exact id
  | cons f nodes ih =>
      intro seen h
      apply ih
      split
      · exact h
      · exact List.cons_ne_nil _ _

-- The nodes of a preorder whose key no earlier node, nor `seen`, holds: the calls that find
-- their key missing from the visited set and scan the store.
def firstVisits : List String → List FileDependency → List FileDependency
  | _, [] => []
  | seen, f :: rest =>
      if f.key ∈ seen then firstVisits seen rest else f :: firstVisits (f.key :: seen) rest

-- The visited set grows by the keys of the first visits, each pushed on the front.
theorem afterVisits_eq (nodes : List FileDependency) :
    ∀ seen,
      afterVisits seen nodes = ((firstVisits seen nodes).map FileDependency.key).reverse ++ seen := by
  induction nodes with
  | nil => intro; rfl
  | cons f nodes ih =>
      intro seen
      by_cases hf : f.key ∈ seen <;> simp [afterVisits, firstVisits, hf, ih]

namespace Walk

variable (w : Walk)

-- The entries the walk attaches under a node with this digest, newest first.
def matching (digest : String) : List CommandLog :=
  w.entries.filter fun cmd => (w.dir.matchSide cmd).any (·.md5 == digest)

-- The depth-first law from the visited set `seen`: a node whose key is visited has no
-- command nodes, any other has one for each matching entry.
def DepthFirst : List String → List FileDependency → Prop
  | _, [] => True
  | seen, f :: rest =>
      f.next.map (·.command) = (if f.key ∈ seen then [] else w.matching f.digest) ∧
        DepthFirst (if f.key ∈ seen then seen else f.key :: seen) rest

theorem depthFirst_append (l₁ l₂ : List FileDependency) :
    ∀ seen, w.DepthFirst seen (l₁ ++ l₂) ↔
      w.DepthFirst seen l₁ ∧ w.DepthFirst (afterVisits seen l₁) l₂ := by
  induction l₁ with
  | nil => simp [DepthFirst, afterVisits]
  | cons f l₁ ih =>
      intro seen
      rw [List.cons_append, DepthFirst, DepthFirst, ih, afterVisits, and_assoc]

-- A node in preorder is cut exactly when an earlier node, or the initial set, has its key.
theorem depthFirst_split {seen : List String} {before after : List FileDependency}
    {f : FileDependency} (h : w.DepthFirst seen (before ++ f :: after)) :
    f.next.map (·.command) =
      if f.key ∈ seen ∨ ∃ g ∈ before, g.key = f.key then [] else w.matching f.digest := by
  simpa only [mem_afterVisits] using ((w.depthFirst_append before (f :: after) seen).mp h).2.1

-- A command node under a node with this digest: an entry of the store recording the digest
-- on the matched side, over the walks of its records on the other side.
def CommandLinked (digest : String) (c : CommandDependency) : Prop :=
  c.out = w.dir.out ∧ c.command ∈ w.entries ∧
    (w.dir.matchSide c.command).any (·.md5 == digest) ∧
    c.next.map (fun g => (g.file, g.digest)) =
      (w.dir.nextSide c.command).map fun r => (r.path, digestOr (some r.md5) (w.hashOf r.path))

def Linked (f : FileDependency) : Prop :=
  f.out = w.dir.out ∧ ∀ c ∈ f.next, w.CommandLinked f.digest c

-- A node the walk reached through a record of the store.
def FromRecord (g : FileDependency) : Prop :=
  ∃ cmd ∈ w.entries, ∃ r ∈ w.dir.nextSide cmd,
    g.file = r.path ∧ g.digest = digestOr (some r.md5) (w.hashOf r.path)

-- `nodes`, walked in preorder from the visited set `covered`, obey the depth-first law, are
-- linked, and leave the visited set `covered'`.
def Visits (covered : List String) (nodes : List FileDependency) (covered' : List String) :
    Prop :=
  w.DepthFirst covered nodes ∧ covered' = afterVisits covered nodes ∧
    ∀ f ∈ nodes, w.Linked f

theorem visits_nil (covered : List String) : w.Visits covered [] covered :=
  ⟨trivial, rfl, by simp⟩

theorem Visits.append {w : Walk} {s₀ s₁ s₂ : List String} {l₁ l₂ : List FileDependency}
    (h₁ : w.Visits s₀ l₁ s₁) (h₂ : w.Visits s₁ l₂ s₂) :
    w.Visits s₀ (l₁ ++ l₂) s₂ := by
  obtain ⟨hd₁, rfl, hl₁⟩ := h₁
  obtain ⟨hd₂, rfl, hl₂⟩ := h₂
  refine ⟨(w.depthFirst_append _ _ _).mpr ⟨hd₁, hd₂⟩, (afterVisits_append _ _ _).symm,
    ?_⟩
  simpa only [List.mem_append] using fun f hf => hf.elim (hl₁ f) (hl₂ f)

-- What a call of the walk returns: a tree for the file with the walk's digest, whose preorder
-- obeys the law from the set it was given, all of whose nodes below the root come from records.
def Sound (visit : Visit) : Prop :=
  ∀ file covered digest dep covered', visit file covered digest = some (dep, covered') →
    dep.file = file ∧ dep.digest = digestOr digest (w.hashOf file) ∧
      w.Visits covered dep.fileNodes covered' ∧
      ∀ g ∈ dep.next.flatMap CommandDependency.fileNodes, w.FromRecord g

variable {w} {visit : Visit}

theorem visitFiles_sound (h : w.Sound visit) :
    ∀ (files : List FileLog) covered deps covered',
      (∀ r ∈ files, ∃ cmd ∈ w.entries, r ∈ w.dir.nextSide cmd) → covered ≠ [] →
      visitFiles visit files covered = some (deps, covered') →
      deps.map (fun g => (g.file, g.digest)) =
          files.map (fun r => (r.path, digestOr (some r.md5) (w.hashOf r.path))) ∧
        w.Visits covered (deps.flatMap FileDependency.fileNodes) covered' ∧
        ∀ g ∈ deps.flatMap FileDependency.fileNodes, w.FromRecord g
  | [], covered, deps, covered', _, _, hv => by
      obtain ⟨rfl, rfl⟩ := Prod.mk.inj (Option.some.inj hv).symm
      exact ⟨rfl, w.visits_nil _, by simp⟩
  | r :: files, covered, deps, covered', hfiles, hne, hv => by
      obtain ⟨dep, seen, rest, h₁, h₂, rfl⟩ := (visitFiles_cons_eq_some ..).mp hv
      rw [if_neg hne] at h₂
      obtain ⟨hfile, hdigest, hvisits, hbelow⟩ := h _ _ _ _ _ h₁
      have hseen : seen ≠ [] := hvisits.2.1 ▸ afterVisits_ne_nil _ hne
      obtain ⟨hmap, hrest, hfrom⟩ := visitFiles_sound h files seen rest covered'
        (fun r' hr' => hfiles r' (List.mem_cons_of_mem _ hr')) hseen h₂
      refine ⟨by simp [hfile, hdigest, hmap], hvisits.append hrest, ?_⟩
      obtain ⟨cmd, hcmd, hr⟩ := hfiles r (List.mem_cons_self ..)
      intro g hg
      simp only [List.flatMap_cons, List.mem_append] at hg
      rcases hg with hg | hg
      · rw [FileDependency.fileNodes_eq, List.mem_cons] at hg
        rcases hg with rfl | hg
        · exact ⟨cmd, hcmd, r, hr, hfile, hdigest⟩
        · exact hbelow g hg
      · exact hfrom g hg

theorem scanEntries_sound (h : w.Sound visit) (d : String) :
    ∀ (cmds : List CommandLog) covered deps covered',
      (∀ cmd ∈ cmds, cmd ∈ w.entries) → covered ≠ [] →
      scanEntries visit w.dir d cmds covered = some (deps, covered') →
      deps.map (·.command) = cmds.filter (fun cmd => (w.dir.matchSide cmd).any (·.md5 == d)) ∧
        (∀ c ∈ deps, w.CommandLinked d c) ∧
        w.Visits covered (deps.flatMap CommandDependency.fileNodes) covered' ∧
        ∀ g ∈ deps.flatMap CommandDependency.fileNodes, w.FromRecord g
  | [], covered, deps, covered', _, _, hs => by
      obtain ⟨rfl, rfl⟩ := Prod.mk.inj (Option.some.inj hs).symm
      exact ⟨rfl, by simp, w.visits_nil _, by simp⟩
  | cmd :: cmds, covered, deps, covered', hcmds, hne, hs => by
      have htail : ∀ c ∈ cmds, c ∈ w.entries :=
        fun c hc => hcmds c (List.mem_cons_of_mem _ hc)
      cases hm : (w.dir.matchSide cmd).any (·.md5 == d) with
      | false =>
          rw [scanEntries_cons_skip _ _ _ _ _ _ hm] at hs
          simpa [List.filter_cons, hm] using
            scanEntries_sound h d cmds covered deps covered' htail hne hs
      | true =>
          obtain ⟨next, seen, rest, h₁, h₂, rfl⟩ :=
            (scanEntries_cons_match_eq_some _ _ _ _ _ _ hm _ _).mp hs
          have hcmd := hcmds cmd (List.mem_cons_self ..)
          obtain ⟨hmap, hvisits, hfrom⟩ := visitFiles_sound h _ covered next seen
            (fun r hr => ⟨cmd, hcmd, hr⟩) hne h₁
          have hseen : seen ≠ [] := hvisits.2.1 ▸ afterVisits_ne_nil _ hne
          obtain ⟨hcmds', hlinked, hrest, hfrom'⟩ :=
            scanEntries_sound h d cmds seen rest covered' htail hseen h₂
          refine ⟨by simp [List.filter_cons, hm, hcmds'], ?_, ?_, ?_⟩
          · simp only [List.mem_cons, forall_eq_or_imp]
            exact ⟨⟨rfl, hcmd, hm, hmap⟩, hlinked⟩
          · simpa only [List.flatMap_cons, CommandDependency.fileNodes_eq,
              CommandDependency.next_mk] using hvisits.append hrest
          · simp only [List.flatMap_cons, CommandDependency.fileNodes_eq,
              CommandDependency.next_mk, List.mem_append]
            exact fun g hg => hg.elim (hfrom g) (hfrom' g)

-- Every call of a walk that shows paths as reached returns what `Sound` says.
theorem fan_sound (hid : w.display = id) : ∀ fuel, w.Sound (w.fan fuel)
  | 0 => fun _ _ _ _ _ h => by simp [Walk.fan] at h
  | fuel + 1 => fun file covered digest dep covered' h => by
      by_cases hk : fileKey file (digestOr digest (w.hashOf file)) ∈ covered
      · rw [w.fan_covered _ _ _ _ hk] at h
        obtain ⟨rfl, rfl⟩ := Prod.mk.inj (Option.some.inj h).symm
        refine ⟨by simp [hid], rfl, ⟨?_, ?_, ?_⟩, by simp⟩ <;>
          simp [FileDependency.fileNodes, CommandDependency.fileNodesList, DepthFirst, afterVisits,
            FileDependency.key, hid, hk, Linked]
      · rw [w.fan_fresh _ _ _ _ hk] at h
        obtain ⟨⟨next, seen⟩, hs, hdep⟩ := Option.map_eq_some'.mp h
        obtain ⟨rfl, rfl⟩ := Prod.mk.inj hdep
        obtain ⟨hcmds, hlinked, ⟨hdf, rfl, hl⟩, hfrom⟩ :=
          scanEntries_sound (fan_sound hid fuel) _ w.entries _ next _ (fun _ => id)
            (List.cons_ne_nil _ _) hs
        have hkey : (FileDependency.mk (w.display file) (digestOr digest (w.hashOf file))
            w.dir.out next).key = fileKey file (digestOr digest (w.hashOf file)) := by
          simp [FileDependency.key, hid]
        refine ⟨by simp [hid], rfl, ⟨?_, ?_, ?_⟩, hfrom⟩
        · rw [FileDependency.fileNodes_eq]
          exact ⟨by simpa [hkey, hk] using hcmds, by simpa [hkey, hk] using hdf⟩
        · rw [FileDependency.fileNodes_eq]
          simp [afterVisits, hkey, hk]
        · rw [FileDependency.fileNodes_eq]
          simp only [List.mem_cons, forall_eq_or_imp]
          exact ⟨⟨rfl, hlinked⟩, hl⟩

end Walk

end CincanCommand.Inspector
