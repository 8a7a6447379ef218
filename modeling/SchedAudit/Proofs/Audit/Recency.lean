import SchedAudit.Proofs.Audit.Diagnoses

/-!
# How far a diagnosis looks back

A full history forgets an entry for each one that it keeps. So it always holds the last entries of what
was recorded, as many as fit (`History.Holds`): an empty history does, and each entry carries it on
(`History.Holds.record`).

An entry is recorded before it is examined. The diagnosis that a sample asks for therefore ends with the
sample itself, and above it stand the 29 entries that came before, or all of them where there are fewer
(`diagnoses_recent`).
-/

namespace SchedAudit

/-! ## Histories -/

namespace History

/-- A history holds the last entries of what was recorded: up to `n` of them, in their order. -/
structure Holds (h : History) (n : Nat) (recorded : List Entry) : Prop where
  capacity : h.capacity = n
  suffix : h.entries <:+ recorded
  length : h.entries.length = min recorded.length n

theorem holds_start : (start true).Holds 30 [] where
  capacity := rfl
  suffix := List.suffix_refl _
  length := rfl

namespace Holds

variable {h : History} {n : Nat} {past : List Entry} (hh : h.Holds n past)

include hh

theorem entries_eq : h.entries = past.drop (past.length - n) := by
  rw [List.suffix_iff_eq_drop.1 hh.suffix, hh.length]
  congr 1
  omega

/-- **One more entry.** It comes last, and in a full history the oldest one makes room for it. -/
theorem record (e : Entry) : (h.record e).Holds n (past ++ [e]) where
  capacity := hh.capacity
  suffix := by
    obtain ⟨forgotten, hforgotten⟩ := hh.suffix
    have hall : h.entries ++ [e] <:+ past ++ [e] :=
      ⟨forgotten, by rw [← List.append_assoc, hforgotten]⟩
    exact (List.drop_suffix _ _).trans hall
  length := by
    have hlength := hh.length
    have hcapacity := hh.capacity
    simp only [History.record, List.length_drop, List.length_append, List.length_singleton]
    omega

theorem foldl (recorded : List Entry) :
    (recorded.foldl History.record h).Holds n (past ++ recorded) := by
  induction recorded generalizing h past with
  | nil => rwa [List.append_nil]
  | cons e rest ih =>
    have hrest := ih (hh.record e)
    rwa [List.append_assoc] at hrest

end Holds

/-- Whatever is recorded from the start, a history holds the last thirty entries of it. -/
theorem holds_foldl_start (recorded : List Entry) :
    (recorded.foldl History.record (start true)).Holds 30 recorded :=
  holds_start.foldl recorded

end History

/-! ## The text of a diagnosis -/

/-- A character of a text stays at its place when more is written behind it. -/
theorem getElem?_append {a b : String} {c : Char} {k : Nat} (h : a.toList[k]? = some c) :
    (a ++ b).toList[k]? = some c := by
  obtain ⟨hk, -⟩ := List.getElem?_eq_some_iff.1 h
  rw [String.toList_append, List.getElem?_append_left hk, h]

namespace Diagnosis

/-- A text that lists some entries as the recent ones: it ends with a line for each of them, in their
order, below the heading, which comes once. -/
def ListsRecent (text : String) (bandwidth : Float) (recent : List Entry) : Prop :=
  ∃ above : List String, "  recent events:" ∉ above ∧
    text = String.join
      ((above ++ "  recent events:" :: recent.map (recentEntry bandwidth)).map (· ++ "\n"))

/-- The third character of a line tells it from the heading. -/
theorem ne_heading {line : String} {c : Char} (h : line.toList[2]? = some c) (hc : c ≠ 'r') :
    line ≠ "  recent events:" := by
  rintro rfl
  exact hc (Option.some.inj h).symm

theorem listsRecent_text (σ : Setting) (s : Schedule) (h : History) (time : Float)
    (m : Rule.RateMismatch) : ListsRecent (text σ s h time m) m.bandwidth h.entries := by
  have htitle : title time m ≠ "  recent events:" := by
    refine ne_heading (c := '=') ?_ (by decide)
    unfold title
    iterate 6 refine getElem?_append ?_
    rfl
  have hnumbers : numbers m ≠ "  recent events:" := by
    refine ne_heading (c := 'd') ?_ (by decide)
    unfold numbers
    iterate 9 refine getElem?_append ?_
    rfl
  have hserver (v : Server) : server v ≠ "  recent events:" := by
    refine ne_heading (c := 's') ?_ (by decide)
    unfold server
    iterate 11 refine getElem?_append ?_
    rfl
  have hattached (v : Server) : attachedServer σ s v ≠ "  recent events:" := by
    refine ne_heading (c := ' ') ?_ (by decide)
    unfold attachedServer
    iterate 7 refine getElem?_append ?_
    rfl
  refine ⟨[title time m, numbers m] ++ ((s.server? m.tid).map server).toList ++
    ["  attached servers:"] ++ (s.attachedOn m.cluster).map (attachedServer σ s), ?_, ?_⟩
  · simp only [List.mem_append, List.mem_cons, List.not_mem_nil, or_false, Option.mem_toList,
      Option.map_eq_some_iff, List.mem_map]
    intro hmem
    obtain (((heq | heq) | ⟨v, -, heq⟩) | heq) | ⟨v, -, heq⟩ := hmem
    · exact htitle heq.symm
    · exact hnumbers heq.symm
    · exact hserver v heq
    · revert heq
      decide
    · exact hattached v heq
  · rw [text, lines]
    simp only [List.append_assoc, List.singleton_append]

end Diagnosis

/-! ## Audits -/

namespace Audit

/-- The diagnoses that the entry at place `k` adds to the report, where they are wanted. -/
def told (platform : Platform) (tasks : List Task) (policy : Policy) (entries : Trace) (k : Nat) :
    List String :=
  (before platform tasks policy true entries (k + 1)).report.diagnoses.drop
    (before platform tasks policy true entries k).report.diagnoses.length

theorem history_foldl (σ : Setting) (policy : Policy) (diagnoses : Bool) (a : Audit)
    (entries : Trace) :
    (entries.foldl (step σ policy diagnoses) a).history = entries.foldl History.record a.history := by
  induction entries generalizing a with
  | nil => rfl
  | cons e entries ih => exact ih _

variable {platform : Platform} {tasks : List Task} {policy : Policy} {entries : Trace} {k : Nat}
  {e : Entry}

theorem told_eq (he : entries[k]? = some e) :
    told platform tasks policy entries k =
      (diagnose? (.ofTrace platform tasks entries)
        (Schedule.before (.ofTrace platform tasks entries) entries k)
        ((before platform tasks policy true entries k).history.record e) e).toList := by
  rw [told, diagnoses_before_succ he, List.drop_left, if_pos rfl]

theorem diagnoses_before (hk : k ≤ entries.length) :
    (before platform tasks policy true entries k).report.diagnoses =
      (List.range k).flatMap (told platform tasks policy entries) := by
  induction k with
  | zero => rfl
  | succ k ih =>
    have he : entries[k]? = some entries[k] := List.getElem?_eq_getElem hk
    rw [diagnoses_before_succ he, if_pos rfl, ih (Nat.le_of_succ_le hk), List.range_succ,
      List.flatMap_append, List.flatMap_singleton, told_eq he]

theorem holds_before (platform : Platform) (tasks : List Task) (policy : Policy) (entries : Trace)
    (k : Nat) :
    (before platform tasks policy true entries k).history.Holds 30 (entries.take k) := by
  rw [before, history_foldl]
  exact History.holds_foldl_start _

/-- An entry is examined with itself at the end of the history, after the 29 before it. -/
theorem entries_record_before (he : entries[k]? = some e) :
    ((before platform tasks policy true entries k).history.record e).entries =
      entries.extract (k - 29) k ++ [e] := by
  obtain ⟨hlt, -⟩ := List.getElem?_eq_some_iff.1 he
  have hlength : (entries.take k).length = k := List.length_take_of_le (Nat.le_of_lt hlt)
  have hfrom : k + 1 - 30 = k - 29 := by omega
  rw [((holds_before platform tasks policy entries k).record e).entries_eq, List.length_append,
    hlength, List.length_singleton, hfrom, List.drop_append_of_le_length (by omega), List.drop_take,
    List.extract_eq_take_drop]

end Audit

/-- A violation of the rate is that of a mismatch, and the same mismatch asks for a diagnosis. -/
theorem exists_mismatch_of_vtRate {σ : Setting} {policy : Policy} {s : Schedule} {e : Entry}
    {x : Violation} (hx : x ∈ examine σ policy s e) (hkind : x.kind = .vtRate) (h : History) :
    ∃ m : Rule.RateMismatch, x = m.violation e.time ∧
      diagnose? σ s h e = some (Diagnosis.text σ s h e.time m) := by
  obtain ⟨kind, hmem, hhead⟩ := head_of_mem_examine hx
  rw [← hhead.kind, hkind] at hmem
  obtain ⟨time, event⟩ := e
  obtain ⟨tid, value, bandwidth, rfl⟩ := vtRate_mem_invariants_iff.1 hmem
  have hfiltered : x ∈ (examine σ policy s ⟨time, .virtualTimeUpdate tid value bandwidth⟩).filter
      (·.kind == .vtRate) := List.mem_filter.2 ⟨hx, beq_iff_eq.2 hkind⟩
  rw [filter_vtRate_examine, Option.mem_toList, Option.map_eq_some_iff] at hfiltered
  obtain ⟨m, hm, rfl⟩ := hfiltered
  exact ⟨m, rfl, by simp only [diagnose?, hm, Option.map_some]⟩

/-- **What a diagnosis looks back on.** A history that was kept from the start holds the last thirty of
the entries that were recorded, or all of them. So where the entry at place `i` breaks the rule on rates,
it adds one diagnosis beside the violation, of the same mismatch; and the recent entries that this lists
are the 29 before place `i`, as far as there are so many, and at the end the entry itself. -/
theorem diagnoses_recent (platform : Platform) (tasks : List Task) (policy : Policy)
    (entries : Trace) :
    (∀ recorded : List Entry,
      let kept := (recorded.foldl History.record (History.start true)).entries
      kept <:+ recorded ∧ kept.length = min recorded.length 30) ∧
    (Report.ofTrace platform tasks policy true entries).diagnoses =
      (List.range entries.length).flatMap (Audit.told platform tasks policy entries) ∧
    ∀ i e x, entries[i]? = some e → x ∈ Audit.appended platform tasks policy true entries i →
      x.kind = .vtRate →
        ∃ (m : Rule.RateMismatch) (text : String), m.ToldBy x text ∧
          Audit.told platform tasks policy entries i = [text] ∧
          Diagnosis.ListsRecent text m.bandwidth (entries.extract (i - 29) i ++ [e]) := by
  refine ⟨fun recorded => ?_, ?_, fun i e x he hx hkind => ?_⟩
  · have hholds := History.holds_foldl_start recorded
    exact ⟨hholds.suffix, hholds.length⟩
  · rw [Audit.report_ofTrace]
    exact Audit.diagnoses_before (Nat.le_refl _)
  · rw [Audit.appended_eq he] at hx
    obtain ⟨m, rfl, hdiagnosis⟩ := exists_mismatch_of_vtRate hx hkind
      ((Audit.before platform tasks policy true entries i).history.record e)
    refine ⟨m, _, toldBy_text .., by rw [Audit.told_eq he, hdiagnosis, Option.toList_some], ?_⟩
    rw [← Audit.entries_record_before he]
    exact Diagnosis.listsRecent_text ..

/-- After its first sample a task is left alone for forty entries, and then its virtual time has advanced
by three within a second, instead of two. -/
def crowdedTrace : Trace :=
  [⟨0.0, .taskPlaced 1 0⟩, ⟨0.0, .servReady 1 10.0 0.5⟩, ⟨0.0, .virtualTimeUpdate 1 0.0 none⟩] ++
    List.replicate 40 ⟨0.5, .resched⟩ ++ [⟨1.0, .virtualTimeUpdate 1 3.0 (some 0.5)⟩]

theorem diagnoses_recent_crowdedTrace :
    let last : Entry := ⟨1.0, .virtualTimeUpdate 1 3.0 (some 0.5)⟩
    crowdedTrace[43]? = some last ∧
      ∃ x ∈ Audit.appended .twin [] .grub true crowdedTrace 43, x.kind = .vtRate ∧
        ∃ (m : Rule.RateMismatch) (text : String), m.ToldBy x text ∧
          Audit.told .twin [] .grub crowdedTrace 43 = [text] ∧
          Diagnosis.ListsRecent text m.bandwidth (List.replicate 29 ⟨0.5, .resched⟩ ++ [last]) := by
  intro last
  have he : crowdedTrace[43]? = some last := rfl
  obtain ⟨x, hx, hkind⟩ : ∃ x ∈ Audit.appended .twin [] .grub true crowdedTrace 43,
      x.kind = .vtRate := by
    have hmismatch : (Rule.rateMismatch? (.ofTrace .twin [] crowdedTrace)
        (Schedule.before (.ofTrace .twin [] crowdedTrace) crowdedTrace 43) 1.0 1 3.0).isSome =
          true := by
      decide +kernel
    obtain ⟨m, hm⟩ := Option.isSome_iff_exists.1 hmismatch
    have hfound : m.violation 1.0 ∈
        (Audit.appended .twin [] .grub true crowdedTrace 43).filter (·.kind == .vtRate) := by
      rw [Audit.appended_eq he, filter_vtRate_examine, hm]
      exact List.mem_singleton_self _
    exact ⟨_, (List.mem_filter.1 hfound).1, rfl⟩
  have hrecent : crowdedTrace.extract (43 - 29) 43 = List.replicate 29 ⟨0.5, .resched⟩ := rfl
  have hlists := (diagnoses_recent .twin [] .grub crowdedTrace).2.2 43 last x he hx hkind
  rw [hrecent] at hlists
  exact ⟨he, x, hx, hkind, hlists⟩

end SchedAudit
