import Mathlib.Data.List.SplitBy
import SchedAudit.Proofs.Audit.Entries
import SchedAudit.Proofs.Binary64.Order

/-!
# Batches leave no mark

A trace is audited batch by batch, and a batch is a stretch of neighbours at one time. There is one
way only to cut a trace like that (`Trace.IsCut`), whatever its times are: they need not ascend, a time
may come back in a later batch, the two zeros are one time, and an entry whose time is not a number is
a batch of its own.

A cut neither loses, repeats nor moves an entry, and an audit takes a batch entry by entry. So the audit
of a trace is the audit of its entries in the order in which they stand (`batches_transparent`).
-/

namespace SchedAudit

/-- Two entries whose times are equal numbers. -/
def Entry.SameTime (e f : Entry) : Prop := (e.time == f.time) = true

namespace Entry.SameTime

variable {e f g : Entry}

theorem isNaN (h : e.SameTime f) : e.time.isNaN = false ∧ f.time.isNaN = false :=
  Binary64.isNaN_eq_false_of_beq h

theorem trans (hef : e.SameTime f) (hfg : f.SameTime g) : e.SameTime g := by
  obtain ⟨he, hf⟩ := hef.isNaN
  obtain ⟨-, hg⟩ := hfg.isNaN
  have hkeys : Binary64.numericKey e.time = Binary64.numericKey g.time :=
    ((Binary64.beq_iff he hf).1 hef).trans ((Binary64.beq_iff hf hg).1 hfg)
  exact (Binary64.beq_iff he hg).2 hkeys

end Entry.SameTime

namespace Trace

variable {trace batch : Trace} {batches : List Trace}

/-- How a trace is cut into batches. -/
structure IsCut (trace : Trace) (batches : List Trace) : Prop where
  /-- the batches together are the trace, in its order -/
  flatten : batches.flatten = trace
  /-- no batch is empty -/
  ne_nil : ∀ batch ∈ batches, batch ≠ []
  /-- neighbours in a batch have equal times -/
  within : ∀ batch ∈ batches, batch.IsChain Entry.SameTime
  /-- the last entry of a batch and the first one of the next have not -/
  between : batches.IsChain fun before after =>
    ∃ last ∈ before.getLast?, ∃ first ∈ after.head?, ¬last.SameTime first

theorem ends_iff {before after : Trace} :
    (∃ last ∈ before.getLast?, ∃ first ∈ after.head?, ¬last.SameTime first) ↔
      ∃ (hbefore : before ≠ []) (hafter : after ≠ []),
        ((before.getLast hbefore).time == (after.head hafter).time) = false := by
  constructor
  · rintro ⟨last, hlast, first, hfirst, hdiffer⟩
    have hbefore := List.ne_nil_of_mem (List.mem_of_getLast? hlast)
    have hafter := List.ne_nil_of_mem (List.mem_of_head? hfirst)
    rw [← List.getLast_of_mem_getLast? hlast, ← List.head_of_mem_head? hfirst] at hdiffer
    exact ⟨hbefore, hafter, Bool.eq_false_iff.2 hdiffer⟩
  · rintro ⟨hbefore, hafter, hdiffer⟩
    exact ⟨_, List.getLast_mem_getLast? hbefore, _, List.head_mem_head? hafter,
      Bool.eq_false_iff.1 hdiffer⟩

/-- **A trace is cut in one way only.** -/
theorem batches_eq_iff : trace.batches = batches ↔ trace.IsCut batches := by
  rw [Trace.batches, List.splitBy_eq_iff]
  simp only [← ends_iff]
  constructor
  · rintro ⟨rfl, hnil, hwithin, hbetween⟩
    exact ⟨rfl, fun batch hbatch hempty => hnil (hempty ▸ hbatch), hwithin, hbetween⟩
  · rintro ⟨rfl, hne, hwithin, hbetween⟩
    exact ⟨rfl, fun hnil => hne [] hnil rfl, hwithin, hbetween⟩

theorem isCut_batches (trace : Trace) : trace.IsCut trace.batches := batches_eq_iff.1 rfl

namespace IsCut

variable (h : trace.IsCut batches) (hbatch : batch ∈ batches)

include h hbatch

/-- All entries of a batch have one time, since equality of times passes from neighbour to neighbour. -/
theorem pairwise_sameTime : batch.Pairwise Entry.SameTime :=
  have _ : IsTrans Entry Entry.SameTime := ⟨fun _ _ _ => Entry.SameTime.trans⟩
  (h.within batch hbatch).pairwise

/-- An entry without a time has no neighbour in its batch. -/
theorem eq_singleton {e : Entry} (he : e ∈ batch) (hnan : e.time.isNaN = true) : batch = [e] := by
  obtain ⟨front, back, rfl⟩ := List.append_of_mem he
  have hpairs := List.pairwise_append.1 (h.pairwise_sameTime hbatch)
  have hnone {f g : Entry} (hsame : f.SameTime g) (hend : f = e ∨ g = e) : False := by
    obtain ⟨hf, hg⟩ := hsame.isNaN
    rcases hend with rfl | rfl
    · exact Bool.false_ne_true (hf.symm.trans hnan)
    · exact Bool.false_ne_true (hg.symm.trans hnan)
  have hfront : front = [] := List.eq_nil_iff_forall_not_mem.2 fun f hf =>
    hnone (hpairs.2.2 f hf e List.mem_cons_self) (.inr rfl)
  have hback : back = [] := List.eq_nil_iff_forall_not_mem.2 fun f hf =>
    hnone ((List.pairwise_cons.1 hpairs.2.1).1 f hf) (.inl rfl)
  rw [hfront, hback, List.nil_append]

end IsCut

end Trace

/-- What batches mean for an audit. -/
structure Trace.Transparent (trace : Trace) : Prop where
  /-- batches are the one way to cut a trace where times change -/
  cut : ∀ batches, trace.batches = batches ↔ trace.IsCut batches
  /-- a batch has one time -/
  one_time : ∀ batch ∈ trace.batches, batch.Pairwise Entry.SameTime
  /-- what has no time is a batch of its own -/
  no_time : ∀ batch ∈ trace.batches, ∀ e ∈ batch, e.time.isNaN = true → batch = [e]
  /-- an audit takes the entries of a trace one after the other -/
  audit : ∀ platform tasks policy diagnoses,
    Report.ofTrace platform tasks policy diagnoses trace =
      (trace.foldl (Audit.step (Setting.ofTrace platform tasks trace) policy diagnoses)
        (Audit.start diagnoses)).report

/-- **Batches leave no mark.** There is one way to cut a trace into stretches of one time, and the audit
that goes through them is the audit of the entries in their order. -/
theorem batches_transparent (trace : Trace) : trace.Transparent where
  cut _ := Trace.batches_eq_iff
  one_time _ hbatch := trace.isCut_batches.pairwise_sameTime hbatch
  no_time _ hbatch _ he hnan := trace.isCut_batches.eq_singleton hbatch he hnan
  audit platform tasks policy diagnoses := by
    rw [Audit.report_ofTrace, Audit.before, List.take_length]

/-- Times in no order: two zeros, a time that is none, and a time that comes back. -/
example :
    Trace.batches [⟨2.0, .resched⟩, ⟨0.0, .resched⟩, ⟨-0.0, .resched⟩, ⟨0.0 / 0.0, .resched⟩,
      ⟨0.0 / 0.0, .resched⟩, ⟨2.0, .simFinished⟩] =
      [[⟨2.0, .resched⟩], [⟨0.0, .resched⟩, ⟨-0.0, .resched⟩], [⟨0.0 / 0.0, .resched⟩],
        [⟨0.0 / 0.0, .resched⟩], [⟨2.0, .simFinished⟩]] := by
  rfl

end SchedAudit
