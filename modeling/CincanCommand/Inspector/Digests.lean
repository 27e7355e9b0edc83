import CincanCommand.Inspector.Unfolding

namespace CincanCommand.Inspector

-- A store whose one entry recorded an output it could not hash.
def unhashableLog : CommandLog :=
  { CommandLog.new ["touch", "x"] with outFiles := [⟨"x", ""⟩] }

def unhashableInspector : CommandInspector := ⟨⟨[unhashableLog]⟩, "/work"⟩

-- The anchor `/work/a` is not a regular file, so its digest is '', and yet it is not a leaf.
theorem fanin_absent_anchor_not_leaf :
    (unhashableInspector.fanin bareHost "/work/a" none).digest = "" ∧
      (unhashableInspector.fanin bareHost "/work/a" none).next.map (·.command) =
        [unhashableLog] := by
  decide

-- A node with the empty digest has only command nodes for entries of the store that recorded
-- the empty digest on the matched side, so it is a leaf when the store records none there.
theorem empty_digest_children (insp : CommandInspector) (host : Host) (file : Path)
    (digest : Option String) :
    (∀ f ∈ (insp.fanin host file digest).fileNodes, f.digest = "" →
      ∀ c ∈ f.next, c.command ∈ insp.log.entries ∧ ∃ r ∈ c.command.outFiles, r.md5 = "") ∧
    (∀ f ∈ (insp.fanout host file digest).fileNodes, f.digest = "" →
      ∀ c ∈ f.next, c.command ∈ insp.log.entries ∧ ∃ r ∈ c.command.inFiles, r.md5 = "") := by
  constructor <;> intro f hf hempty c hc
  · obtain ⟨hmem, ⟨r, hr, hmd5⟩, -⟩ := insp.run_children host faninDirection file digest
      (fun _ _ hr => List.mem_append_left _ hr) f hf c hc
    exact ⟨hmem, r, hr, hmd5.trans hempty⟩
  · obtain ⟨hmem, ⟨r, hr, hmd5⟩, -⟩ := insp.run_children host fanoutDirection file digest
      (fun _ _ hr => List.mem_append_right _ hr) f hf c hc
    exact ⟨hmem, r, hr, hmd5.trans hempty⟩

end CincanCommand.Inspector
