import Mathlib
import SchedAudit.Settings

/-!
# What a settings file gives

A settings file lies over the defaults: whatever it says counts, and what it leaves out stays as it was
(`Settings.LiesOver`). Only two things that it may say are refused, a time limit of zero and a list
without policies, and the time limit is told first. Settings are determined by what their file says
(`settings_overlay`).

A policy that is listed again is not run again. The list is gone through once, and a policy is kept
unless it has been kept before; that is to leave out each policy that stands earlier in the list
(`firstOccurrences_eq_unrepeated`). So a batch has some policy, and none twice: the places of its runs
are counted from that.
-/

namespace SchedAudit

/-! ## Lists without repetitions -/

namespace Settings

/-- A list of policies without those that stand in it before. -/
def unrepeated (policies : List Policy) : List Policy :=
  (policies.zipIdx.filter fun p => p.1 ∉ policies.take p.2).map (·.1)

variable {policies : List Policy} {p : Policy}

theorem firstOccurrences_append_singleton (policies : List Policy) (p : Policy) :
    firstOccurrences (policies ++ [p]) =
      if p ∈ firstOccurrences policies then firstOccurrences policies
      else firstOccurrences policies ++ [p] := by
  simp [firstOccurrences]

theorem mem_firstOccurrences_iff : p ∈ firstOccurrences policies ↔ p ∈ policies := by
  induction policies using List.reverseRecOn generalizing p with
  | nil => rfl
  | append_singleton policies q ih =>
    rw [firstOccurrences_append_singleton, List.mem_append, List.mem_singleton]
    split_ifs with hq
    · rw [ih] at hq ⊢
      exact ⟨.inl, fun h => h.elim id fun h => h ▸ hq⟩
    · rw [List.mem_append, List.mem_singleton, ih]

theorem nodup_firstOccurrences (policies : List Policy) : (firstOccurrences policies).Nodup := by
  induction policies using List.reverseRecOn with
  | nil => exact List.nodup_nil
  | append_singleton policies q ih =>
    rw [firstOccurrences_append_singleton]
    split_ifs with hq
    · exact ih
    · refine List.nodup_append.2 ⟨ih, List.nodup_singleton q, fun p hp r hr => ?_⟩
      rintro rfl
      exact hq (List.mem_singleton.1 hr ▸ hp)

theorem unrepeated_append_singleton (policies : List Policy) (p : Policy) :
    unrepeated (policies ++ [p]) = unrepeated policies ++ if p ∈ policies then [] else [p] := by
  have hbefore : policies.zipIdx.filter (fun q => q.1 ∉ (policies ++ [p]).take q.2) =
      policies.zipIdx.filter fun q => q.1 ∉ policies.take q.2 := by
    refine List.filter_congr fun q hq => ?_
    have hlt : q.2 < policies.length := List.snd_lt_of_mem_zipIdx hq
    rw [List.take_append_of_le_length hlt.le]
  rw [unrepeated, List.zipIdx_append, List.filter_append, List.map_append, hbefore, unrepeated]
  congr 1
  split_ifs with hp <;> simp [hp]

/-- **To keep what has not been kept is to leave out what stands before.** -/
theorem firstOccurrences_eq_unrepeated (policies : List Policy) :
    firstOccurrences policies = unrepeated policies := by
  induction policies using List.reverseRecOn with
  | nil => rfl
  | append_singleton policies p ih =>
    rw [firstOccurrences_append_singleton, unrepeated_append_singleton, ← ih]
    simp only [mem_firstOccurrences_iff]
    split_ifs
    · rw [List.append_nil]
    · rfl

example : firstOccurrences [.pa, .grub, .pa, .csf, .grub] = [.pa, .grub, .csf] := by decide

end Settings

/-! ## Arguments of policies -/

/-- The arguments that a settings file gives a policy: those that it tells last. -/
def SettingsFile.Gives (file : SettingsFile) (p : Policy) (arguments : List String) : Prop :=
  ∃ front back, file.policyFlags = front ++ (p, arguments) :: back ∧ ∀ entry ∈ back, entry.1 ≠ p

section Flags

variable {file : SettingsFile} {p : Policy} {arguments : List String}

theorem SettingsFile.gives_iff :
    file.Gives p arguments ↔ file.policyFlags.reverse.lookup p = some arguments := by
  rw [List.lookup_eq_some_iff]
  constructor
  · rintro ⟨front, back, hflags, hback⟩
    refine ⟨back.reverse, front.reverse, by rw [hflags]; simp, fun entry hentry => ?_⟩
    exact bne_iff_ne.2 (hback entry (List.mem_reverse.1 hentry)).symm
  · rintro ⟨back, front, hflags, hback⟩
    refine ⟨front.reverse, back.reverse, ?_, fun entry hentry => ?_⟩
    · rw [← List.reverse_reverse file.policyFlags, hflags]
      simp
    · exact (bne_iff_ne.1 (hback entry (List.mem_reverse.1 hentry))).symm

theorem Settings.overlayFlags_of_gives (otherwise : Policy → List String)
    (h : file.Gives p arguments) : overlayFlags otherwise file.policyFlags p = arguments := by
  rw [overlayFlags, SettingsFile.gives_iff.1 h, Option.getD_some]

theorem Settings.overlayFlags_of_not_gives (otherwise : Policy → List String)
    (h : ¬∃ arguments, file.Gives p arguments) :
    overlayFlags otherwise file.policyFlags p = otherwise p := by
  have hnone : file.policyFlags.reverse.lookup p = none := by
    refine Option.eq_none_iff_forall_ne_some.2 fun arguments hsome => h ⟨arguments, ?_⟩
    exact SettingsFile.gives_iff.2 hsome
  rw [overlayFlags, hnone, Option.getD_none]

end Flags

/-! ## Settings over the defaults -/

/-- A value is what a file tells, and the standard one where it tells nothing. -/
structure TakenFrom {α : Type} (told : Option α) (standard value : α) : Prop where
  eq_told : ∀ v ∈ told, value = v
  eq_standard : told = none → value = standard

theorem takenFrom_iff {α : Type} {told : Option α} {standard value : α} :
    TakenFrom told standard value ↔ value = told.getD standard := by
  cases told with
  | none => exact ⟨fun h => h.eq_standard rfl, fun h => ⟨nofun, fun _ => h⟩⟩
  | some v => exact ⟨fun h => h.eq_told v rfl, fun h => ⟨fun _ hv => h.trans (Option.some.inj hv), nofun⟩⟩

namespace Settings

/-- Settings that a file gives, over the defaults. -/
structure LiesOver (file : SettingsFile) (s : Settings) : Prop where
  /-- the time limit is told in seconds and kept in milliseconds -/
  timeout : TakenFrom (file.timeoutSecs.map (1000 * ·)) default.timeout s.timeout
  /-- the policies in the order in which they are told, each in its first place; all of them where none
  is told -/
  policies : TakenFrom (file.policies.map unrepeated) [.grub, .pa, .ffa, .csf] s.policies
  /-- the arguments of a policy that are told last -/
  flags_told : ∀ p arguments, file.Gives p arguments → s.flags p = arguments
  /-- the arguments of a policy on which nothing is told -/
  flags_untold : ∀ p, (¬∃ arguments, file.Gives p arguments) → s.flags p = p.defaultFlags
  skipFiles : TakenFrom file.skipFiles default.skipFiles s.skipFiles
  maxFailureDetails : TakenFrom file.maxFailureDetails default.maxFailureDetails s.maxFailureDetails

/-- What makes sense in a settings file. -/
def Sensible (file : SettingsFile) : Prop := file.timeoutSecs ≠ some 0 ∧ file.policies ≠ some []

variable {file : SettingsFile} {s : Settings}

/-- The three ways in which a settings file is taken. -/
theorem overlay_cases (file : SettingsFile) :
    (file.timeoutSecs = some 0 ∧ overlay file = .error .zeroTimeout) ∨
    ((file.timeoutSecs ≠ some 0 ∧ file.policies = some []) ∧ overlay file = .error .noPolicy) ∨
    (Sensible file ∧ ∃ s, overlay file = .ok s ∧ s.LiesOver file) := by
  rw [overlay]
  split_ifs with htimeout hpolicies
  · exact .inl ⟨htimeout, rfl⟩
  · exact .inr (.inl ⟨⟨htimeout, hpolicies⟩, rfl⟩)
  · refine .inr (.inr ⟨⟨htimeout, hpolicies⟩, _, rfl, ?_⟩)
    exact {
      timeout := takenFrom_iff.2 (by simp only [mul_comm])
      policies := takenFrom_iff.2 (by rw [← funext firstOccurrences_eq_unrepeated]; rfl)
      flags_told := fun p arguments => overlayFlags_of_gives _
      flags_untold := fun p => overlayFlags_of_not_gives _
      skipFiles := takenFrom_iff.2 rfl
      maxFailureDetails := takenFrom_iff.2 rfl }

/-- A file gives one value for each setting. -/
theorem LiesOver.unique {t : Settings} (hs : s.LiesOver file) (ht : t.LiesOver file) : s = t := by
  have hflags : s.flags = t.flags := by
    funext p
    by_cases h : ∃ arguments, file.Gives p arguments
    · obtain ⟨arguments, h⟩ := h
      rw [hs.flags_told p arguments h, ht.flags_told p arguments h]
    · rw [hs.flags_untold p h, ht.flags_untold p h]
  have heq {α : Type} {told : Option α} {standard v w : α} (hv : TakenFrom told standard v)
      (hw : TakenFrom told standard w) : v = w :=
    (takenFrom_iff.1 hv).trans (takenFrom_iff.1 hw).symm
  cases s
  cases t
  rw [Settings.mk.injEq]
  exact ⟨heq hs.timeout ht.timeout, heq hs.policies ht.policies, hflags,
    heq hs.skipFiles ht.skipFiles, heq hs.maxFailureDetails ht.maxFailureDetails⟩

theorem overlay_eq_ok_iff : overlay file = .ok s ↔ Sensible file ∧ s.LiesOver file := by
  rcases overlay_cases file with ⟨htimeout, hends⟩ | ⟨⟨-, hpolicies⟩, hends⟩ | ⟨hsensible, t, hends, ht⟩
  · exact iff_of_false (by rw [hends]; nofun) fun h => h.1.1 htimeout
  · exact iff_of_false (by rw [hends]; nofun) fun h => h.1.2 hpolicies
  · rw [hends, Except.ok.injEq]
    constructor
    · rintro rfl
      exact ⟨hsensible, ht⟩
    · exact fun h => ht.unique h.2

theorem overlay_eq_zeroTimeout_iff :
    overlay file = .error .zeroTimeout ↔ file.timeoutSecs = some 0 := by
  rcases overlay_cases file with ⟨htimeout, hends⟩ | ⟨⟨htimeout, -⟩, hends⟩ | ⟨hsensible, t, hends, -⟩
  · exact iff_of_true hends htimeout
  · exact iff_of_false (by rw [hends]; nofun) htimeout
  · exact iff_of_false (by rw [hends]; nofun) hsensible.1

theorem overlay_eq_noPolicy_iff :
    overlay file = .error .noPolicy ↔ file.timeoutSecs ≠ some 0 ∧ file.policies = some [] := by
  rcases overlay_cases file with ⟨htimeout, hends⟩ | ⟨hfault, hends⟩ | ⟨hsensible, t, hends, -⟩
  · exact iff_of_false (by rw [hends]; nofun) fun h => h.1 htimeout
  · exact iff_of_true hends hfault
  · exact iff_of_false (by rw [hends]; nofun) fun h => hsensible.2 h.2

theorem exists_overlay_eq_ok_iff : (∃ s, overlay file = .ok s) ↔ Sensible file := by
  constructor
  · rintro ⟨s, hs⟩
    exact (overlay_eq_ok_iff.1 hs).1
  · intro hsensible
    rcases overlay_cases file with ⟨htimeout, -⟩ | ⟨⟨-, hpolicies⟩, -⟩ | ⟨-, s, hs, -⟩
    · exact absurd htimeout hsensible.1
    · exact absurd hpolicies hsensible.2
    · exact ⟨s, hs⟩

/-- A batch has some policy, and none twice. -/
theorem LiesOver.policies_ne_nil_and_nodup (h : s.LiesOver file) (hsensible : Sensible file) :
    s.policies ≠ [] ∧ s.policies.Nodup := by
  cases htold : file.policies with
  | none =>
    rw [h.policies.eq_standard (by rw [htold]; rfl)]
    decide
  | some declared =>
    rw [h.policies.eq_told (unrepeated declared) (by rw [htold]; rfl), ← firstOccurrences_eq_unrepeated]
    obtain ⟨p, hp⟩ := List.exists_mem_of_ne_nil declared fun hnil => hsensible.2 (hnil ▸ htold)
    exact ⟨List.ne_nil_of_mem (mem_firstOccurrences_iff.2 hp), nodup_firstOccurrences declared⟩

end Settings

/-! ## Files -/

/-- What a file says, where it can be read at all. -/
def SettingsFile.SaidBy {guarded : Bool} (file : SettingsFile) (found : Found guarded) : Prop :=
  ∃ source, found.text = .ok source ∧ SettingsFile.parse? source = some file

namespace Settings

theorem loadFile_of_saidBy {guarded : Bool} {path : String} {found : Found guarded}
    {file : SettingsFile}
    (h : file.SaidBy found) : loadFile path found = (overlay file).mapError (.invalid path) := by
  obtain ⟨source, htext, hfile⟩ := h
  rw [loadFile, htext]
  simp only [hfile]
  cases overlay file <;> rfl

/-- What comes of the settings in a file. -/
structure Overlaid (file : SettingsFile) : Prop where
  /-- that there is no time is told first -/
  zeroTimeout : overlay file = .error .zeroTimeout ↔ file.timeoutSecs = some 0
  /-- then that there is no policy -/
  noPolicy : overlay file = .error .noPolicy ↔ file.timeoutSecs ≠ some 0 ∧ file.policies = some []
  /-- all other files give settings -/
  succeeds : (∃ s, overlay file = .ok s) ↔ file.timeoutSecs ≠ some 0 ∧ file.policies ≠ some []
  /-- and they are those that the file says, over the defaults -/
  given : ∀ s, overlay file = .ok s ↔ Sensible file ∧ s.LiesOver file
  /-- in which there is a policy, and none twice -/
  policies : ∀ s, overlay file = .ok s → s.policies ≠ [] ∧ s.policies.Nodup
  /-- a fault in a file is told with its path -/
  loaded : ∀ {guarded : Bool} (path : String) (found : Found guarded), file.SaidBy found →
    loadFile path found = (overlay file).mapError (.invalid path)

end Settings

/-- **What a settings file gives.** A file that names a time limit of zero or a list without policies is
refused, the time limit first. All other files give the settings that they say, and the defaults for
what they leave out. -/
theorem settings_overlay (file : SettingsFile) : Settings.Overlaid file where
  zeroTimeout := Settings.overlay_eq_zeroTimeout_iff
  noPolicy := Settings.overlay_eq_noPolicy_iff
  succeeds := Settings.exists_overlay_eq_ok_iff
  given _ := Settings.overlay_eq_ok_iff
  policies _ hs :=
    have ⟨hsensible, hover⟩ := Settings.overlay_eq_ok_iff.1 hs
    hover.policies_ne_nil_and_nodup hsensible
  loaded _ _ := Settings.loadFile_of_saidBy

end SchedAudit
