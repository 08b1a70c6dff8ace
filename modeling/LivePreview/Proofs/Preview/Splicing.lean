/-
  LivePreview.Proofs.Preview.Splicing
  ───────────────────────────────────
  **Linking from the back of a code is linking from its front.**

  The sites of a code may be listed in any order.  If they lie apart and none is empty,
  there is one way to read them from the front (`exists_ordered`), and linking gives the
  gaps between them as they are, one behind the other, with a text at each site:

      code      g g g [ site ) g g [ site ) g          every gap is a piece of the code
      linked    g g g  text    g g  text    g

  The text is the literal of the id of the file that the specifier names, or else what
  stands at the site (`link_forward`).
-/
import LivePreview.Proofs.Preview.Linked

namespace LivePreview.Preview

open LivePreview.Lowering (Site exchange)

/-! ## §1. Sites that lie apart -/

/-- Neither of two sites reaches into the other. -/
def Apart (a b : Site) : Prop :=
  a.stop ≤ b.start ∨ b.stop ≤ a.start

/-- Sites that lie apart can be read from the front. -/
theorem exists_ordered {sites : List Site} (hapart : sites.Pairwise Apart)
    (hbounds : ∀ site ∈ sites, site.start < site.stop) :
    ∃ ordered : List Site, ordered.Perm sites ∧ ordered.Pairwise fun a b => a.stop ≤ b.start := by
  let ordered := sites.mergeSort fun a b => a.start ≤ b.start
  have hperm : ordered.Perm sites := List.mergeSort_perm sites _
  have hsorted : ordered.Pairwise fun a b => decide (a.start ≤ b.start) = true :=
    List.pairwise_mergeSort
      (fun a b c hab hbc => by
        rw [decide_eq_true_eq] at hab hbc ⊢
        exact Nat.le_trans hab hbc)
      (fun a b => by
        rw [Bool.or_eq_true, decide_eq_true_eq, decide_eq_true_eq]
        exact Nat.le_total _ _)
      sites
  have hkept : ordered.Pairwise Apart :=
    (hperm.pairwise_iff fun hab => hab.symm).mpr hapart
  refine ⟨ordered, hperm, (hsorted.and hkept).imp_of_mem fun {a b} ha hb h => ?_⟩
  -- a site that does not start behind another one ends in front of it
  have hstart : a.start ≤ b.start := of_decide_eq_true h.1
  have := hbounds b (hperm.mem_iff.mp hb)
  rcases h.2 with hab | hba
  · exact hab
  · omega

/-! ## §2. From the front to the back -/

/-- The rest of a code from a place on, with a text in place of each of the sites that lie there. -/
def forward {α : Type} (code : List α) (textAt : Site → List α) : Nat → List Site → List α
  | position, [] => code.drop position
  | position, site :: sites =>
    code.extract position site.start ++ textAt site ++ forward code textAt site.stop sites

/-- The sites follow one another behind a place, and none of them is empty. -/
def FollowFrom : Nat → List Site → Prop
  | _, [] => True
  | position, site :: sites =>
    position ≤ site.start ∧ site.start < site.stop ∧ FollowFrom site.stop sites

theorem followFrom_of_pairwise {position : Nat} {sites : List Site}
    (hordered : sites.Pairwise fun a b => a.stop ≤ b.start)
    (hbounds : ∀ site ∈ sites, position ≤ site.start ∧ site.start < site.stop) :
    FollowFrom position sites := by
  induction sites generalizing position with
  | nil => trivial
  | cons site sites ih =>
    obtain ⟨hfront, hsites⟩ := List.pairwise_cons.mp hordered
    obtain ⟨hstart, hlt⟩ := hbounds site List.mem_cons_self
    refine ⟨hstart, hlt, ih hsites fun later hmem => ⟨hfront later hmem, ?_⟩⟩
    exact (hbounds later (List.mem_cons_of_mem _ hmem)).2

section Forward

variable {α : Type} {code : List α} {position : Nat} {sites : List Site}

/-- Places in the rest of a code are places in the code. -/
theorem exchange_drop (textAt : Site → List α) (h : FollowFrom position sites) :
    exchange textAt position sites (code.drop position) = forward code textAt position sites := by
  induction sites generalizing position with
  | nil => rfl
  | cons site sites ih =>
    obtain ⟨hstart, hlt, hlater⟩ := h
    have hstop : position + (site.stop - position) = site.stop := by omega
    rw [exchange, forward, List.drop_drop, hstop, ih hlater, List.extract_eq_take_drop]

theorem extract_append_drop {start stop : Nat} (h : start ≤ stop) :
    code.extract start stop ++ code.drop stop = code.drop start := by
  have hsplit := List.take_append_drop (stop - start) (code.drop start)
  rwa [List.drop_drop, Nat.add_sub_cancel' h, ← List.extract_eq_take_drop] at hsplit

/-- A code with what stands at each site in its place is the code. -/
theorem forward_extract (h : FollowFrom position sites) :
    forward code (fun site => code.extract site.start site.stop) position sites
      = code.drop position := by
  induction sites generalizing position with
  | nil => rfl
  | cons site sites ih =>
    obtain ⟨hstart, hlt, hlater⟩ := h
    rw [forward, ih hlater, List.append_assoc, extract_append_drop (Nat.le_of_lt hlt),
      extract_append_drop hstart]

end Forward

/-! ## §3. Linking -/

/-- For every code, every list of sites that lie apart in it, none of them empty, and every table of
files: there is a way to read the sites from the front, and whichever it is, linking gives the gaps of
the code between them with, at each site, the literal of the id of the file that its specifier names,
or else what stands there.  (With what stands at every site the gaps make up the code.) -/
theorem link_forward {code : Text} {sites : List Site} (hapart : sites.Pairwise Apart)
    (hbounds : ∀ site ∈ sites, site.start < site.stop ∧ site.stop ≤ code.points.length)
    (targets : Table Text) :
    (∃ ordered : List Site, ordered.Perm sites ∧ ordered.Pairwise fun a b => a.stop ≤ b.start) ∧
    ∀ ordered : List Site, ordered.Perm sites → (ordered.Pairwise fun a b => a.stop ≤ b.start) →
      (link code sites targets).points
          = forward code.points (fun site => linkedAt (targets.get? site.specifier) code.points site) 0
              ordered ∧
        code.points
          = forward code.points (fun site => code.points.extract site.start site.stop) 0 ordered := by
  refine ⟨exists_ordered hapart fun site hsite => (hbounds site hsite).1,
    fun ordered hperm hordered => ?_⟩
  have hinside : ∀ site ∈ ordered, site.start < site.stop ∧ site.stop ≤ code.points.length :=
    fun site hsite => hbounds site (hperm.mem_iff.mp hsite)
  have hfollow : FollowFrom 0 ordered := followFrom_of_pairwise hordered fun site hsite =>
    ⟨Nat.zero_le _, (hinside site hsite).1⟩
  constructor
  · rw [points_link hperm hordered hinside]
    exact exchange_drop _ hfollow
  · exact (forward_extract hfollow).symm

/-- A code with three literals, of which the first two specifiers are alike. -/
def threefoldCode : Text := "import \"./a\"; import \"./a\"; import \"react\";"

/-- The sites of its literals, the last one first. -/
def threefoldSites : List Site :=
  [⟨35, 42, "react"⟩, ⟨7, 12, "./a"⟩, ⟨21, 26, "./a"⟩]

/-- The literals are linked wherever they are listed, and the one that names no file stays. -/
theorem link_forward_threefold :
    threefoldSites.Pairwise Apart ∧
    (∀ site ∈ threefoldSites, site.start < site.stop ∧ site.stop ≤ threefoldCode.points.length) ∧
    link threefoldCode threefoldSites [("./a", "/src/a.js")]
      = "import \"@vfs/src/a.js\"; import \"@vfs/src/a.js\"; import \"react\";" := by
  have hapart : threefoldSites.Pairwise Apart := by
    unfold Apart
    decide
  have hbounds : ∀ site ∈ threefoldSites,
      site.start < site.stop ∧ site.stop ≤ threefoldCode.points.length := by
    decide +kernel
  have hperm : [⟨7, 12, "./a"⟩, ⟨21, 26, "./a"⟩, ⟨35, 42, "react"⟩].Perm threefoldSites := by
    decide +kernel
  obtain ⟨-, hforward⟩ := link_forward hapart hbounds [("./a", "/src/a.js")]
  refine ⟨hapart, hbounds, Text.ext ?_⟩
  rw [(hforward _ hperm (by decide)).1]
  decide +kernel

end LivePreview.Preview
