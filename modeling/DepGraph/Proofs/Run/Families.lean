import DepGraph.Run.Cancellation
import Mathlib.Data.List.Induction

/-!
# Families of tokens

A token is made by creating it or by cloning another one. Every token goes back to one that was
created, its founder, and the tokens that go back to the same one are a family. A family is
cancelled together and has one deadline, and that is all that a token ever has to say: what happens
to other families does not matter to it. The clock has no last reading, so every timeout gives a
deadline, though a clock may never come to it.

- `Action`, `after`: what is done with tokens, and the tokens after a list of actions.
- `Descends`: from which founder a token descends; `FamilyCancelled`, `ExpiresAt`: what happened to
  the family of a founder. None of them looks at what is written on a token.
- `Tracks`, `tracks_apply`: what is written on the tokens tells all this, and one action keeps it.
- `check_congr`, `check_concat`, `check_ne_none_mono`: what a token has to say depends on the
  story of its family alone, and only gets worse.
- `check_of_family`: tokens speak for their family, and for no other, and never take it back.
-/

namespace DepGraph.Tokens

/-- What is done with tokens. -/
inductive Action where
  | create (now : Nat) (timeout : Option Nat)
  | clone (token : Nat)
  | cancel (token : Nat)

/-- The tokens after one action more. -/
def apply (s : Tokens) : Action → Tokens
  | .create now timeout => s.create now timeout
  | .clone token => s.clone token
  | .cancel token => s.cancel token

/-- The tokens after the actions. -/
def after (actions : List Action) : Tokens :=
  actions.foldl apply {}

theorem after_concat (actions : List Action) (action : Action) :
    after (actions ++ [action]) = (after actions).apply action := by
  rw [after, List.foldl_append]
  rfl

/-- How many tokens there are. The next one gets this number. -/
def size (s : Tokens) : Nat :=
  s.tokens.size

/-! ## Families -/

/-- The token with the first number goes back to the created one with the second. -/
inductive Descends : List Action → Nat → Nat → Prop
  | created (past : List Action) (now : Nat) (timeout : Option Nat) :
      Descends (past ++ [.create now timeout]) (after past).size (after past).size
  | cloned {past : List Action} {parent founder : Nat} (h : Descends past parent founder) :
      Descends (past ++ [.clone parent]) (after past).size founder
  | later {past : List Action} {token founder : Nat} (action : Action)
      (h : Descends past token founder) : Descends (past ++ [action]) token founder

/-- Some token of the family was cancelled when it was there. -/
def FamilyCancelled (actions : List Action) (founder : Nat) : Prop :=
  ∃ past token, past ++ [.cancel token] <+: actions ∧ Descends past token founder

/-- The founder was created with a timeout that ends at the reading. -/
def ExpiresAt (actions : List Action) (founder deadline : Nat) : Prop :=
  ∃ past now timeout, past ++ [.create now (some timeout)] <+: actions ∧
    founder = (after past).size ∧ deadline = now + timeout

section

variable {past actions : List Action} {action : Action} {token founder deadline : Nat}

theorem not_descends_nil : ¬ Descends [] token founder := by
  generalize hnil : ([] : List Action) = actions
  intro h
  cases h <;> exact List.append_ne_nil_of_right_ne_nil _ (List.cons_ne_nil _ _) hnil.symm

theorem descends_create_iff {now : Nat} {timeout : Option Nat} :
    Descends (past ++ [.create now timeout]) token founder ↔
      Descends past token founder ∨ token = (after past).size ∧ founder = (after past).size := by
  constructor
  · generalize hlast : past ++ [.create now timeout] = actions
    intro h
    cases h with
    | created past' =>
      obtain ⟨rfl, -⟩ := List.append_inj' hlast rfl
      exact .inr ⟨rfl, rfl⟩
    | cloned => exact nomatch (List.append_inj' hlast rfl).2
    | later _ h =>
      obtain ⟨rfl, -⟩ := List.append_inj' hlast rfl
      exact .inl h
  · rintro (h | ⟨rfl, rfl⟩)
    · exact h.later _
    · exact .created past now timeout

theorem descends_clone_iff {parent : Nat} :
    Descends (past ++ [.clone parent]) token founder ↔
      Descends past token founder ∨ token = (after past).size ∧ Descends past parent founder := by
  constructor
  · generalize hlast : past ++ [.clone parent] = actions
    intro h
    cases h with
    | created => exact nomatch (List.append_inj' hlast rfl).2
    | cloned h =>
      obtain ⟨rfl, heq⟩ := List.append_inj' hlast rfl
      obtain rfl := Action.clone.inj (List.cons.inj heq).1
      exact .inr ⟨rfl, h⟩
    | later _ h =>
      obtain ⟨rfl, -⟩ := List.append_inj' hlast rfl
      exact .inl h
  · rintro (h | ⟨rfl, h⟩)
    · exact h.later _
    · exact .cloned h

theorem descends_cancel_iff {other : Nat} :
    Descends (past ++ [.cancel other]) token founder ↔ Descends past token founder := by
  constructor
  · generalize hlast : past ++ [.cancel other] = actions
    intro h
    cases h with
    | created => exact nomatch (List.append_inj' hlast rfl).2
    | cloned => exact nomatch (List.append_inj' hlast rfl).2
    | later _ h =>
      obtain ⟨rfl, -⟩ := List.append_inj' hlast rfl
      exact h
  · exact fun h => h.later _

/-- A founder goes back to itself. -/
theorem Descends.self (h : Descends actions token founder) :
    Descends actions founder founder := by
  induction h with
  | created past now timeout => exact .created past now timeout
  | cloned _ ih => exact ih.later _
  | later action _ ih => exact ih.later action

theorem Descends.mono (h : Descends past token founder) (hpast : past <+: actions) :
    Descends actions token founder := by
  obtain ⟨rest, rfl⟩ := hpast
  induction rest using List.reverseRecOn with
  | nil => rwa [List.append_nil]
  | append_singleton rest action ih =>
    rw [← List.append_assoc]
    exact ih.later action

theorem FamilyCancelled.mono (h : FamilyCancelled past founder) (hpast : past <+: actions) :
    FamilyCancelled actions founder := by
  obtain ⟨before, token, hprefix, hdescends⟩ := h
  exact ⟨before, token, hprefix.trans hpast, hdescends⟩

theorem ExpiresAt.mono (h : ExpiresAt past founder deadline) (hpast : past <+: actions) :
    ExpiresAt actions founder deadline := by
  obtain ⟨before, now, timeout, hprefix, hrest⟩ := h
  exact ⟨before, now, timeout, hprefix.trans hpast, hrest⟩

theorem ExpiresAt.descends (h : ExpiresAt actions founder deadline) :
    Descends actions founder founder := by
  obtain ⟨before, now, timeout, hprefix, rfl, -⟩ := h
  exact (Descends.created before now (some timeout)).mono hprefix

theorem familyCancelled_concat_iff :
    FamilyCancelled (past ++ [action]) founder ↔ FamilyCancelled past founder ∨
      ∃ token, action = .cancel token ∧ Descends past token founder := by
  constructor
  · rintro ⟨before, token, hprefix, hdescends⟩
    rcases List.prefix_concat_iff.mp hprefix with heq | hold
    · obtain ⟨rfl, hlast⟩ := List.append_inj' heq rfl
      exact .inr ⟨token, (List.cons.inj hlast).1.symm, hdescends⟩
    · exact .inl ⟨before, token, hold, hdescends⟩
  · rintro (h | ⟨token, rfl, hdescends⟩)
    · exact h.mono (List.prefix_append _ _)
    · exact ⟨past, token, List.prefix_rfl, hdescends⟩

theorem familyCancelled_concat_of_ne (h : ∀ token, action ≠ .cancel token) :
    FamilyCancelled (past ++ [action]) founder ↔ FamilyCancelled past founder :=
  familyCancelled_concat_iff.trans (or_iff_left fun ⟨token, haction, _⟩ => h token haction)

theorem expiresAt_concat_iff :
    ExpiresAt (past ++ [action]) founder deadline ↔ ExpiresAt past founder deadline ∨
      ∃ now timeout, action = .create now (some timeout) ∧ founder = (after past).size ∧
        deadline = now + timeout := by
  constructor
  · rintro ⟨before, now, timeout, hprefix, hrest⟩
    rcases List.prefix_concat_iff.mp hprefix with heq | hold
    · obtain ⟨rfl, hlast⟩ := List.append_inj' heq rfl
      exact .inr ⟨now, timeout, (List.cons.inj hlast).1.symm, hrest⟩
    · exact .inl ⟨before, now, timeout, hold, hrest⟩
  · rintro (h | ⟨now, timeout, rfl, hrest⟩)
    · exact h.mono (List.prefix_append _ _)
    · exact ⟨past, now, timeout, List.prefix_rfl, hrest⟩

theorem expiresAt_concat_of_ne (h : ∀ now timeout, action ≠ .create now timeout) :
    ExpiresAt (past ++ [action]) founder deadline ↔ ExpiresAt past founder deadline :=
  expiresAt_concat_iff.trans (or_iff_left fun ⟨now, _, haction, _⟩ => h now _ haction)

end

/-! ## What is written on tokens -/

theorem tokens_cancel (s : Tokens) (other : Nat) : (s.cancel other).tokens = s.tokens := by
  unfold cancel
  split <;> rfl

theorem families_cancel (s : Tokens) (other : Nat) : (s.cancel other).families = s.families := by
  unfold cancel
  split <;> rfl

theorem families_clone (s : Tokens) (parent : Nat) : (s.clone parent).families = s.families := by
  unfold clone
  split <;> rfl

theorem cancelledFamilies_clone (s : Tokens) (parent : Nat) :
    (s.clone parent).cancelledFamilies = s.cancelledFamilies := by
  unfold clone
  split <;> rfl

/-- This is written on a token that goes back to the founder. -/
def Written (actions : List Action) (founder : Nat) (t : Token) : Prop :=
  ∃ token, Descends actions token founder ∧ (after actions).tokens[token]? = some t

/-- What is written on the tokens tells the families apart, which of them were cancelled, and when
they expire. -/
structure Tracks (actions : List Action) : Prop where
  exists_token : ∀ token founder, Descends actions token founder →
    ∃ t, (after actions).tokens[token]? = some t
  exists_founder : ∀ token t, (after actions).tokens[token]? = some t →
    ∃ founder, Descends actions token founder
  family_lt : ∀ founder t, Written actions founder t → t.family < (after actions).families
  cancelled_lt : ∀ family ∈ (after actions).cancelledFamilies, family < (after actions).families
  family_eq_iff : ∀ founder t founder' u, Written actions founder t → Written actions founder' u →
    (t.family = u.family ↔ founder = founder')
  cancelled_iff : ∀ founder t, Written actions founder t →
    (t.family ∈ (after actions).cancelledFamilies ↔ FamilyCancelled actions founder)
  deadline_iff : ∀ founder t, Written actions founder t →
    ∀ deadline, t.deadline = some deadline ↔ ExpiresAt actions founder deadline

theorem tracks_nil : Tracks [] where
  exists_token _ _ h := absurd h not_descends_nil
  exists_founder _ _ h := by simp [after] at h
  family_lt := fun _ _ ⟨_, h, _⟩ => absurd h not_descends_nil
  cancelled_lt _ h := absurd h List.not_mem_nil
  family_eq_iff := fun _ _ _ _ ⟨_, h, _⟩ => absurd h not_descends_nil
  cancelled_iff := fun _ _ ⟨_, h, _⟩ => absurd h not_descends_nil
  deadline_iff := fun _ _ ⟨_, h, _⟩ => absurd h not_descends_nil

section

variable {past : List Action} {token founder : Nat} {t : Token} (h : Tracks past)

include h

theorem Tracks.lt_size (hdescends : Descends past token founder) : token < (after past).size := by
  obtain ⟨t, ht⟩ := h.exists_token token founder hdescends
  exact (Array.getElem?_eq_some_iff.mp ht).1

/-- The number that the next token gets is no founder yet. -/
theorem Tracks.not_descends_size : ¬ Descends past token (after past).size :=
  fun hdescends => Nat.lt_irrefl _ (h.lt_size hdescends.self)

theorem Tracks.founder_unique {founder' : Nat} (hdescends : Descends past token founder)
    (hdescends' : Descends past token founder') : founder = founder' := by
  obtain ⟨t, ht⟩ := h.exists_token token founder hdescends
  exact (h.family_eq_iff founder t founder' t ⟨token, hdescends, ht⟩ ⟨token, hdescends', ht⟩).mp rfl

/-- Another token is put behind those that were there. -/
theorem Tracks.getElem?_push (hdescends : Descends past token founder) (new : Token) :
    ((after past).tokens.push new)[token]? = (after past).tokens[token]? := by
  have hlt : token < (after past).tokens.size := h.lt_size hdescends
  rw [Array.getElem?_push, if_neg (Nat.ne_of_lt hlt)]

/-! ### Creating -/

theorem Tracks.written_create_iff {now : Nat} {timeout : Option Nat} :
    Written (past ++ [.create now timeout]) founder t ↔ Written past founder t ∨
      founder = (after past).size ∧ t = ⟨(after past).families, timeout.map (now + ·)⟩ := by
  unfold Written
  simp only [after_concat, descends_create_iff, apply, create]
  constructor
  · rintro ⟨token, hold | ⟨rfl, rfl⟩, ht⟩
    · rw [h.getElem?_push hold] at ht
      exact .inl ⟨token, hold, ht⟩
    · rw [size, Array.getElem?_push_size] at ht
      exact .inr ⟨rfl, (Option.some.inj ht).symm⟩
  · rintro (⟨token, hold, ht⟩ | ⟨rfl, rfl⟩)
    · exact ⟨token, .inl hold, by rw [h.getElem?_push hold, ht]⟩
    · exact ⟨_, .inr ⟨rfl, rfl⟩, Array.getElem?_push_size⟩

theorem Tracks.founder_ne (hwritten : Written past founder t) : founder ≠ (after past).size := by
  rintro rfl
  obtain ⟨_, hdescends, -⟩ := hwritten
  exact h.not_descends_size hdescends

/-- With a created token begins a family of its own. -/
theorem Tracks.create (now : Nat) (timeout : Option Nat) :
    Tracks (past ++ [.create now timeout]) where
  exists_token token founder hdescends := by
    rw [after_concat]
    rcases descends_create_iff.mp hdescends with hold | ⟨rfl, rfl⟩
    · obtain ⟨t, ht⟩ := h.exists_token token founder hold
      exact ⟨t, (h.getElem?_push hold _).trans ht⟩
    · exact ⟨_, Array.getElem?_push_size⟩
  exists_founder token t ht := by
    rw [after_concat] at ht
    simp only [descends_create_iff]
    rw [apply, Tokens.create, Array.getElem?_push] at ht
    split at ht
    next hlast => exact ⟨_, .inr ⟨hlast, rfl⟩⟩
    next =>
      obtain ⟨founder, hfounder⟩ := h.exists_founder token t ht
      exact ⟨founder, .inl hfounder⟩
  family_lt founder t hwritten := by
    rw [after_concat]
    rcases h.written_create_iff.mp hwritten with hold | ⟨-, rfl⟩
    · exact Nat.lt_succ_of_lt (h.family_lt founder t hold)
    · exact Nat.lt_succ_self _
  cancelled_lt family hfamily := by
    rw [after_concat] at hfamily ⊢
    exact Nat.lt_succ_of_lt (h.cancelled_lt family hfamily)
  family_eq_iff founder t founder' u ht hu := by
    rcases h.written_create_iff.mp ht with ht | ⟨rfl, rfl⟩ <;>
      rcases h.written_create_iff.mp hu with hu | ⟨rfl, rfl⟩
    · exact h.family_eq_iff founder t founder' u ht hu
    · exact iff_of_false (Nat.ne_of_lt (h.family_lt founder t ht)) (h.founder_ne ht)
    · exact iff_of_false (Nat.ne_of_gt (h.family_lt founder' u hu)) (h.founder_ne hu).symm
    · exact iff_of_true rfl rfl
  cancelled_iff founder t hwritten := by
    rw [after_concat, familyCancelled_concat_of_ne (by simp)]
    rcases h.written_create_iff.mp hwritten with hold | ⟨rfl, rfl⟩
    · exact h.cancelled_iff founder t hold
    · refine iff_of_false (fun hmem => Nat.lt_irrefl _ (h.cancelled_lt _ hmem)) ?_
      rintro ⟨before, token, hprefix, hdescends⟩
      exact h.not_descends_size
        (hdescends.mono ((List.prefix_append before _).trans hprefix))
  deadline_iff founder t hwritten deadline := by
    rw [expiresAt_concat_iff]
    rcases h.written_create_iff.mp hwritten with hold | ⟨rfl, rfl⟩
    · rw [or_iff_left (fun ⟨_, _, _, hfounder, _⟩ => h.founder_ne hold hfounder)]
      exact h.deadline_iff founder t hold deadline
    · rw [or_iff_right (fun hexpires => h.not_descends_size hexpires.descends)]
      cases timeout with
      | none => simp
      | some timeout =>
        constructor
        · intro hdeadline
          exact ⟨now, timeout, rfl, rfl, (Option.some.inj hdeadline).symm⟩
        · rintro ⟨_, _, ⟨rfl, rfl⟩, -, rfl⟩
          rfl

/-! ### Cloning -/

/-- On a clone stands what stands on the token it was made from. -/
theorem Tracks.written_clone_iff {parent : Nat} :
    Written (past ++ [.clone parent]) founder t ↔ Written past founder t := by
  unfold Written
  simp only [after_concat, descends_clone_iff, apply, clone]
  cases hparent : (after past).tokens[parent]? with
  | none =>
    refine exists_congr fun token => and_congr_left fun _ => or_iff_left ?_
    rintro ⟨-, hnot⟩
    obtain ⟨u, hu⟩ := h.exists_token parent founder hnot
    rw [hparent] at hu
    cases hu
  | some u =>
    constructor
    · rintro ⟨token, hold | ⟨rfl, hdescends⟩, ht⟩
      · rw [h.getElem?_push hold] at ht
        exact ⟨token, hold, ht⟩
      · rw [size, Array.getElem?_push_size] at ht
        exact ⟨parent, hdescends, hparent.trans ht⟩
    · rintro ⟨token, hold, ht⟩
      exact ⟨token, .inl hold, by rw [h.getElem?_push hold, ht]⟩

theorem Tracks.clone (parent : Nat) : Tracks (past ++ [.clone parent]) where
  exists_token token founder hdescends := by
    rw [after_concat, apply, Tokens.clone]
    rcases descends_clone_iff.mp hdescends with hold | ⟨rfl, hparent⟩
    · obtain ⟨t, ht⟩ := h.exists_token token founder hold
      split
      · exact ⟨t, (h.getElem?_push hold _).trans ht⟩
      · exact ⟨t, ht⟩
    · obtain ⟨u, hu⟩ := h.exists_token parent founder hparent
      rw [hu]
      exact ⟨u, Array.getElem?_push_size⟩
  exists_founder token t ht := by
    rw [after_concat, apply, Tokens.clone] at ht
    simp only [descends_clone_iff]
    split at ht
    next u hu =>
      rw [Array.getElem?_push] at ht
      split at ht
      next hlast =>
        obtain ⟨founder, hfounder⟩ := h.exists_founder parent u hu
        exact ⟨founder, .inr ⟨hlast, hfounder⟩⟩
      next =>
        obtain ⟨founder, hfounder⟩ := h.exists_founder token t ht
        exact ⟨founder, .inl hfounder⟩
    next =>
      obtain ⟨founder, hfounder⟩ := h.exists_founder token t ht
      exact ⟨founder, .inl hfounder⟩
  family_lt founder t hwritten := by
    rw [after_concat, apply, families_clone]
    exact h.family_lt founder t (h.written_clone_iff.mp hwritten)
  cancelled_lt := by
    rw [after_concat, apply, families_clone, cancelledFamilies_clone]
    exact h.cancelled_lt
  family_eq_iff founder t founder' u ht hu :=
    h.family_eq_iff founder t founder' u (h.written_clone_iff.mp ht) (h.written_clone_iff.mp hu)
  cancelled_iff founder t hwritten := by
    rw [after_concat, apply, cancelledFamilies_clone, familyCancelled_concat_of_ne (by simp)]
    exact h.cancelled_iff founder t (h.written_clone_iff.mp hwritten)
  deadline_iff founder t hwritten deadline := by
    rw [expiresAt_concat_of_ne (by simp)]
    exact h.deadline_iff founder t (h.written_clone_iff.mp hwritten) deadline

/-! ### Cancelling -/

omit h in
theorem written_cancel_iff {other : Nat} :
    Written (past ++ [.cancel other]) founder t ↔ Written past founder t := by
  unfold Written
  simp only [after_concat, descends_cancel_iff, apply, tokens_cancel]

/-- The families that were cancelled, once another token is. -/
theorem Tracks.mem_cancelledFamilies_cancel {other : Nat} (hwritten : Written past founder t) :
    t.family ∈ ((after past).cancel other).cancelledFamilies ↔
      t.family ∈ (after past).cancelledFamilies ∨ Descends past other founder := by
  rw [Tokens.cancel]
  split
  next u hu =>
    obtain ⟨founder', hfounder'⟩ := h.exists_founder other u hu
    rw [List.mem_cons, h.family_eq_iff founder t founder' u hwritten ⟨other, hfounder', hu⟩,
      or_comm]
    refine or_congr_right ⟨?_, fun hdescends => h.founder_unique hdescends hfounder'⟩
    rintro rfl
    exact hfounder'
  next hnone =>
    refine (or_iff_left fun hdescends => ?_).symm
    obtain ⟨u, hu⟩ := h.exists_token other founder hdescends
    rw [hnone] at hu
    cases hu

theorem Tracks.cancel (other : Nat) : Tracks (past ++ [.cancel other]) where
  exists_token token founder hdescends := by
    rw [after_concat, apply, tokens_cancel]
    exact h.exists_token token founder (descends_cancel_iff.mp hdescends)
  exists_founder token t ht := by
    rw [after_concat, apply, tokens_cancel] at ht
    obtain ⟨founder, hfounder⟩ := h.exists_founder token t ht
    exact ⟨founder, descends_cancel_iff.mpr hfounder⟩
  family_lt founder t hwritten := by
    rw [after_concat, apply, families_cancel]
    exact h.family_lt founder t (written_cancel_iff.mp hwritten)
  cancelled_lt family hfamily := by
    rw [after_concat, apply] at hfamily ⊢
    rw [families_cancel]
    rw [Tokens.cancel] at hfamily
    split at hfamily
    next t ht =>
      rcases List.mem_cons.mp hfamily with rfl | hold
      · obtain ⟨founder, hfounder⟩ := h.exists_founder other t ht
        exact h.family_lt founder t ⟨other, hfounder, ht⟩
      · exact h.cancelled_lt family hold
    next => exact h.cancelled_lt family hfamily
  family_eq_iff founder t founder' u ht hu :=
    h.family_eq_iff founder t founder' u (written_cancel_iff.mp ht) (written_cancel_iff.mp hu)
  cancelled_iff founder t hwritten := by
    rw [written_cancel_iff] at hwritten
    rw [after_concat, apply, h.mem_cancelledFamilies_cancel hwritten,
      h.cancelled_iff founder t hwritten, familyCancelled_concat_iff]
    refine or_congr_right ⟨fun hdescends => ⟨other, rfl, hdescends⟩, ?_⟩
    rintro ⟨_, ⟨rfl⟩, hdescends⟩
    exact hdescends
  deadline_iff founder t hwritten deadline := by
    rw [expiresAt_concat_of_ne (by simp)]
    exact h.deadline_iff founder t (written_cancel_iff.mp hwritten) deadline

theorem tracks_apply (action : Action) : Tracks (past ++ [action]) := by
  cases action with
  | create now timeout => exact h.create now timeout
  | clone parent => exact h.clone parent
  | cancel other => exact h.cancel other

end

theorem tracks_after (actions : List Action) : Tracks actions := by
  induction actions using List.reverseRecOn with
  | nil => exact tracks_nil
  | append_singleton past action ih => exact tracks_apply ih action

/-! ## What tokens have to say -/

section

variable {actions : List Action} {token founder : Nat}

/-- A token speaks for its family. -/
theorem isCancelled_iff (hdescends : Descends actions token founder) :
    (after actions).isCancelled token = true ↔ FamilyCancelled actions founder := by
  obtain ⟨t, ht⟩ := (tracks_after actions).exists_token token founder hdescends
  rw [← (tracks_after actions).cancelled_iff founder t ⟨token, hdescends, ht⟩]
  simp only [isCancelled, ht, Option.any_some, List.contains_iff_mem]

theorem isExpired_iff (hdescends : Descends actions token founder) (now : Nat) :
    (after actions).isExpired now token = true ↔ ∃ deadline ≤ now,
      ExpiresAt actions founder deadline := by
  obtain ⟨t, ht⟩ := (tracks_after actions).exists_token token founder hdescends
  simp only [← (tracks_after actions).deadline_iff founder t ⟨token, hdescends, ht⟩, isExpired, ht,
    Option.bind_some, Option.any_eq_true, decide_eq_true_eq]
  exact exists_congr fun deadline => and_comm

theorem check_eq_cancelled_iff (hdescends : Descends actions token founder) (now : Nat) :
    (after actions).check now token = some .cancelled ↔ FamilyCancelled actions founder := by
  rw [check, Interruption.interruption?_eq_cancelled_iff, isCancelled_iff hdescends]

theorem check_eq_timedOut_iff (hdescends : Descends actions token founder) (now : Nat) :
    (after actions).check now token = some .timedOut ↔ ¬ FamilyCancelled actions founder ∧
      ∃ deadline ≤ now, ExpiresAt actions founder deadline := by
  rw [check, Interruption.interruption?_eq_timedOut_iff, ← Bool.not_eq_true,
    isCancelled_iff hdescends, isExpired_iff hdescends]

theorem check_eq_none_iff (hdescends : Descends actions token founder) (now : Nat) :
    (after actions).check now token = none ↔ ¬ FamilyCancelled actions founder ∧
      ¬ ∃ deadline ≤ now, ExpiresAt actions founder deadline := by
  rw [check, Interruption.interruption?_eq_none_iff, ← Bool.not_eq_true, ← Bool.not_eq_true,
    isCancelled_iff hdescends, isExpired_iff hdescends]

/-- Tokens with the same story have the same to say. -/
theorem check_congr {actions' : List Action} {token' founder' now now' : Nat}
    (hdescends : Descends actions token founder) (hdescends' : Descends actions' token' founder')
    (hcancelled : FamilyCancelled actions founder ↔ FamilyCancelled actions' founder')
    (hexpired : (∃ deadline ≤ now, ExpiresAt actions founder deadline) ↔
      ∃ deadline ≤ now', ExpiresAt actions' founder' deadline) :
    (after actions).check now token = (after actions').check now' token' := by
  rw [← isCancelled_iff hdescends, ← isCancelled_iff hdescends', ← Bool.eq_iff_iff] at hcancelled
  rw [← isExpired_iff hdescends, ← isExpired_iff hdescends', ← Bool.eq_iff_iff] at hexpired
  rw [check, check, hcancelled, hexpired]

/-- What happens to other families does not matter to a token. -/
theorem check_concat {action : Action} (hdescends : Descends actions token founder)
    (hother : ∀ kin, action = .cancel kin → ¬ Descends actions kin founder) (now : Nat) :
    (after (actions ++ [action])).check now token = (after actions).check now token := by
  refine check_congr (hdescends.later action) hdescends ?_ ?_
  · rw [familyCancelled_concat_iff]
    exact or_iff_left fun ⟨kin, haction, hkin⟩ => hother kin haction hkin
  · refine exists_congr fun deadline => and_congr_right fun _ => ?_
    rw [expiresAt_concat_iff]
    refine or_iff_left ?_
    rintro ⟨_, _, -, rfl, -⟩
    exact (tracks_after actions).not_descends_size hdescends

/-- A family that has to stop never goes on. -/
theorem check_ne_none_mono {later : List Action} {kin now now' : Nat}
    (hdescends : Descends actions token founder) (hstop : (after actions).check now token ≠ none)
    (hkin : Descends later kin founder) (hlater : actions <+: later) (hnow : now ≤ now') :
    (after later).check now' kin ≠ none := by
  intro hnone
  obtain ⟨hcancelled, hexpired⟩ := (check_eq_none_iff hkin now').mp hnone
  refine hstop ((check_eq_none_iff hdescends now).mpr ⟨fun h => ?_, ?_⟩)
  · exact hcancelled (h.mono hlater)
  · rintro ⟨deadline, hle, hexpires⟩
    exact hexpired ⟨deadline, Nat.le_trans hle hnow, hexpires.mono hlater⟩

end

/-- Every token there is goes back to one founder. It says that it was cancelled if and only if some
token that goes back to this founder was, or else that time is over if and only if the timeout of
the founder has passed, or else nothing. Only the cancelling of a token that goes back to the same
founder makes it say something else at the same reading of the clock. Once it had something to say,
so have all that go back to its founder, whenever they were cloned, from then on. -/
theorem check_of_family (actions : List Action) :
    (∀ token, token < (after actions).size ↔ ∃ founder, Descends actions token founder) ∧
    (∀ token founder founder', Descends actions token founder → Descends actions token founder' →
      founder = founder') ∧
    (∀ token founder, Descends actions token founder → ∀ now,
      ((after actions).check now token = some .cancelled ↔ FamilyCancelled actions founder) ∧
      ((after actions).check now token = some .timedOut ↔ ¬ FamilyCancelled actions founder ∧
        ∃ deadline ≤ now, ExpiresAt actions founder deadline) ∧
      ((after actions).check now token = none ↔ ¬ FamilyCancelled actions founder ∧
        ¬ ∃ deadline ≤ now, ExpiresAt actions founder deadline)) ∧
    (∀ token founder action, Descends actions token founder →
      (∀ kin, action = .cancel kin → ¬ Descends actions kin founder) →
      ∀ now, (after (actions ++ [action])).check now token = (after actions).check now token) ∧
    ∀ token founder now, Descends actions token founder → (after actions).check now token ≠ none →
      ∀ later kin now', Descends (actions ++ later) kin founder → now ≤ now' →
        (after (actions ++ later)).check now' kin ≠ none := by
  refine ⟨fun token => ⟨fun hlt => ?_, ?_⟩, fun token founder founder' => ?_,
    fun token founder hdescends now => ⟨?_, ?_, ?_⟩, fun token founder action hdescends => ?_, ?_⟩
  · exact (tracks_after actions).exists_founder token _ (Array.getElem?_eq_getElem hlt)
  · rintro ⟨founder, hdescends⟩
    exact (tracks_after actions).lt_size hdescends
  · exact (tracks_after actions).founder_unique
  · exact check_eq_cancelled_iff hdescends now
  · exact check_eq_timedOut_iff hdescends now
  · exact check_eq_none_iff hdescends now
  · exact check_concat hdescends
  · intro token founder now hdescends hstop later kin now' hkin hnow
    exact check_ne_none_mono hdescends hstop hkin (List.prefix_append _ _) hnow

/-- A copy of a copy is cancelled, which is known to the copies on the way to it, and does not
matter to the other token nor to its copy. -/
example : (List.range 5).map ((after [.create 0 (some 5), .clone 0, .create 0 none, .clone 1,
    .clone 2, .cancel 3]).check 7) =
      [some .cancelled, some .cancelled, none, some .cancelled, none] := by decide

end DepGraph.Tokens
