import CincanCommand.Inspector.DepthFirst

namespace CincanCommand.Inspector

section Monotone

-- `visit'` finishes every call that `visit` finishes, with the same result.
def Extends (visit visit' : Visit) : Prop :=
  ∀ file covered digest r,
    visit file covered digest = some r → visit' file covered digest = some r

variable {visit visit' : Visit}

theorem visitFiles_extends (h : Extends visit visit') :
    ∀ (files : List FileLog) (covered : List String) r,
      visitFiles visit files covered = some r → visitFiles visit' files covered = some r
  | [], _, _, hv => hv
  | r :: files, covered, (deps, c), hv => by
      obtain ⟨dep, seen, rest, h1, h2, rfl⟩ := (visitFiles_cons_eq_some ..).mp hv
      exact (visitFiles_cons_eq_some ..).mpr
        ⟨dep, seen, rest, h _ _ _ _ h1, visitFiles_extends h files _ _ h2, rfl⟩

theorem scanEntries_extends (h : Extends visit visit') (dir : Direction) (d : String) :
    ∀ (cmds : List CommandLog) (covered : List String) r,
      scanEntries visit dir d cmds covered = some r →
        scanEntries visit' dir d cmds covered = some r
  | [], _, _, hs => hs
  | cmd :: cmds, covered, (deps, c), hs => by
      cases hm : (dir.matchSide cmd).any (·.md5 == d) with
      | false =>
          rw [scanEntries_cons_skip _ _ _ _ _ _ hm] at hs ⊢
          exact scanEntries_extends h dir d cmds covered _ hs
      | true =>
          obtain ⟨next, seen, rest, h1, h2, rfl⟩ :=
            (scanEntries_cons_match_eq_some _ _ _ _ _ _ hm _ _).mp hs
          exact (scanEntries_cons_match_eq_some _ _ _ _ _ _ hm _ _).mpr
            ⟨next, seen, rest, visitFiles_extends h _ _ _ h1,
              scanEntries_extends h dir d cmds _ _ h2, rfl⟩

theorem Walk.fan_extends (w : Walk) : ∀ fuel, Extends (w.fan fuel) (w.fan (fuel + 1))
  | 0 => fun _ _ _ _ h => by simp [Walk.fan] at h
  | fuel + 1 => fun file covered digest r h => by
      by_cases hk : fileKey file (digestOr digest (w.hashOf file)) ∈ covered
      · rwa [w.fan_covered _ _ _ _ hk] at h ⊢
      · rw [w.fan_fresh _ _ _ _ hk] at h ⊢
        obtain ⟨p, hp, rfl⟩ := Option.map_eq_some'.mp h
        rw [scanEntries_extends (w.fan_extends fuel) _ _ _ _ _ hp]
        rfl

theorem Walk.fan_mono (w : Walk) {fuel fuel' : Nat} (hle : fuel ≤ fuel') {file : Path}
    {covered : List String} {digest : Option String} {r : FileDependency × List String}
    (h : w.fan fuel file covered digest = some r) : w.fan fuel' file covered digest = some r := by
  induction hle with
  | refl => exact h
  | step _ ih => exact w.fan_extends _ _ _ _ _ ih

end Monotone

section Completion

variable (keys : List String)

-- A duplicate-free visited set inside `keys` has at most as many keys as `keys` has distinct ones.
theorem length_le_dedup {covered : List String} (hn : covered.Nodup) (hs : covered ⊆ keys) :
    covered.length ≤ keys.dedup.length :=
  (List.subperm_of_subset hn fun _ hx => List.mem_dedup.mpr (hs hx)).length_le

-- `visit` finishes each call on a key of `keys`, from a duplicate-free visited set inside
-- `keys` that leaves fewer than `room` of them unvisited, and returns such a set extending it.
def Completes (keyOf : Path → Option String → String) (room : Nat) (visit : Visit) : Prop :=
  ∀ file covered digest, covered.Nodup → covered ⊆ keys → keyOf file digest ∈ keys →
    keys.dedup.length < covered.length + room →
    ∃ dep covered', visit file covered digest = some (dep, covered') ∧
      covered'.Nodup ∧ covered' ⊆ keys ∧ covered <:+ covered'

variable {keys} {keyOf : Path → Option String → String} {room : Nat} {visit : Visit}

theorem visitFiles_completes (h : Completes keys keyOf room visit) :
    ∀ (files : List FileLog), (∀ r ∈ files, keyOf r.path (some r.md5) ∈ keys) →
      ∀ covered, covered.Nodup → covered ⊆ keys →
        keys.dedup.length < covered.length + room →
        ∃ deps covered', visitFiles visit files covered = some (deps, covered') ∧
          covered'.Nodup ∧ covered' ⊆ keys ∧ covered <:+ covered'
  | [], _, covered, hn, hs, _ => ⟨[], covered, rfl, hn, hs, List.suffix_refl _⟩
  | r :: files, hf, covered, hn, hs, hroom => by
      obtain ⟨dep, seen, h1, hn1, hs1, hx1⟩ :=
        h r.path covered (some r.md5) hn hs (hf r (List.mem_cons_self ..)) hroom
      -- the set the next record is visited with: ours, or the callee's when ours was shared
      have hnext : (if covered = [] then covered else seen).Nodup ∧
          (if covered = [] then covered else seen) ⊆ keys ∧
          covered <:+ (if covered = [] then covered else seen) := by
        split
        · exact ⟨hn, hs, List.suffix_refl _⟩
        · exact ⟨hn1, hs1, hx1⟩
      obtain ⟨rest, covered', h2, hn2, hs2, hx2⟩ :=
        visitFiles_completes h files (fun r' hr' => hf r' (List.mem_cons_of_mem _ hr'))
          _ hnext.1 hnext.2.1 (by have := hnext.2.2.length_le; omega)
      exact ⟨dep :: rest, covered',
        (visitFiles_cons_eq_some ..).mpr ⟨dep, seen, rest, h1, h2, rfl⟩, hn2, hs2,
        hnext.2.2.trans hx2⟩

theorem scanEntries_completes (h : Completes keys keyOf room visit) (dir : Direction)
    (d : String) :
    ∀ (cmds : List CommandLog),
      (∀ cmd ∈ cmds, ∀ r ∈ dir.nextSide cmd, keyOf r.path (some r.md5) ∈ keys) →
      ∀ covered, covered.Nodup → covered ⊆ keys →
        keys.dedup.length < covered.length + room →
        ∃ deps covered', scanEntries visit dir d cmds covered = some (deps, covered') ∧
          covered'.Nodup ∧ covered' ⊆ keys ∧ covered <:+ covered'
  | [], _, covered, hn, hs, _ => ⟨[], covered, rfl, hn, hs, List.suffix_refl _⟩
  | cmd :: cmds, hc, covered, hn, hs, hroom => by
      have htail : ∀ c ∈ cmds, ∀ r ∈ dir.nextSide c, keyOf r.path (some r.md5) ∈ keys :=
        fun c hc' => hc c (List.mem_cons_of_mem _ hc')
      cases hm : (dir.matchSide cmd).any (·.md5 == d) with
      | false =>
          rw [scanEntries_cons_skip _ _ _ _ _ _ hm]
          exact scanEntries_completes h dir d cmds htail covered hn hs hroom
      | true =>
          obtain ⟨next, seen, h1, hn1, hs1, hx1⟩ :=
            visitFiles_completes h _ (hc cmd (List.mem_cons_self ..)) covered hn hs hroom
          obtain ⟨rest, covered', h2, hn2, hs2, hx2⟩ :=
            scanEntries_completes h dir d cmds htail seen hn1 hs1 (by have := hx1.length_le; omega)
          exact ⟨_, covered', (scanEntries_cons_match_eq_some _ _ _ _ _ _ hm _ _).mpr
            ⟨next, seen, rest, h1, h2, rfl⟩, hn2, hs2, hx1.trans hx2⟩

theorem Walk.fan_completes (w : Walk)
    (hkeys : ∀ cmd ∈ w.entries, ∀ r ∈ w.dir.nextSide cmd, w.recordKey r ∈ keys) :
    ∀ fuel, Completes keys (fun file digest => fileKey file (digestOr digest (w.hashOf file)))
      fuel (w.fan fuel)
  | 0 => fun _ covered _ hn hs _ hroom => by
      have := length_le_dedup keys hn hs
      omega
  | fuel + 1 => fun file covered digest hn hs hk hroom => by
      by_cases hmem : fileKey file (digestOr digest (w.hashOf file)) ∈ covered
      · exact ⟨_, covered, w.fan_covered _ _ _ _ hmem, hn, hs, List.suffix_refl _⟩
      · obtain ⟨next, covered', h1, hn1, hs1, hx1⟩ :=
          scanEntries_completes (w.fan_completes hkeys fuel) w.dir _ w.entries hkeys
            (fileKey file (digestOr digest (w.hashOf file)) :: covered)
            (List.nodup_cons.mpr ⟨hmem, hn⟩) (List.cons_subset.mpr ⟨hk, hs⟩)
            (by simp only [List.length_cons]; omega)
        refine ⟨_, covered', by rw [w.fan_fresh _ _ _ _ hmem, h1]; rfl, hn1, hs1, ?_⟩
        exact (List.suffix_cons _ _).trans hx1

end Completion

-- A walk from `file` finishes once it may nest one call per distinct key, and gives the same
-- tree with any more. On the walk that shows paths as reached, its visited set ends holding the
-- keys of the nodes of the preorder whose key no earlier node holds, the calls that scanned the
-- store, one key each and all distinct: so it scans at most once per distinct key.
def Walk.TerminatesWithinKeys (w : Walk) (file : Path) (digest : Option String) : Prop :=
  ∃ covered, (∀ fuel, w.bound file digest ≤ fuel →
      w.fan fuel file [] digest = some (w.run file digest, covered)) ∧
    covered = ((firstVisits [] ({ w with display := id }.run file digest).fileNodes).map
      FileDependency.key).reverse ∧
    covered.Nodup ∧ covered ⊆ w.keys file digest ∧
    (firstVisits [] ({ w with display := id }.run file digest).fileNodes).length ≤
      (w.keys file digest).dedup.length

theorem Walk.terminatesWithinKeys (w : Walk)
    (hside : ∀ cmd, ∀ r ∈ w.dir.nextSide cmd, r ∈ cmd.inFiles ++ cmd.outFiles)
    (file : Path) (digest : Option String) : w.TerminatesWithinKeys file digest := by
  have hkeys :
      ∀ cmd ∈ w.entries, ∀ r ∈ w.dir.nextSide cmd, w.recordKey r ∈ w.keys file digest :=
    fun cmd hcmd r hr => List.mem_cons_of_mem _ <|
      List.mem_flatMap.mpr ⟨cmd, hcmd, List.mem_map_of_mem _ (hside cmd r hr)⟩
  obtain ⟨dep, covered, h, hn, hs, -⟩ :=
    w.fan_completes hkeys (w.bound file digest) file [] digest List.nodup_nil
      (List.nil_subset _) (List.mem_cons_self ..) (by simp [Walk.bound])
  have hrun : w.run file digest = dep := by simp [Walk.run, h]
  -- the walk showing paths as reached makes the same calls, and its preorder fills the set
  obtain ⟨⟨origin, c⟩, h₀, hp⟩ := Option.map_eq_some'.mp ((w.fan_display _ _ _ _).symm.trans h)
  obtain rfl : c = covered := congrArg Prod.snd hp
  have hbound : { w with display := id }.bound file digest = w.bound file digest := rfl
  have horigin : { w with display := id }.run file digest = origin := by
    rw [Walk.run, hbound, h₀]
  obtain ⟨-, -, ⟨-, hcov, -⟩, -⟩ := @Walk.fan_sound { w with display := id } rfl _ _ _ _ _ _ h₀
  rw [afterVisits_eq, List.append_nil, ← horigin] at hcov
  have hlen := length_le_dedup _ hn hs
  rw [hcov, List.length_reverse, List.length_map] at hlen
  exact ⟨c, fun fuel hle => hrun ▸ w.fan_mono hle h, hcov, hn, hs, hlen⟩

end CincanCommand.Inspector
