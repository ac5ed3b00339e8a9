import Abacus.Grammar.Rule

/-!
# What rules read

Two views of a rule, one for each direction of a proof about a grammar:

* `Reads`: every phrase that the rule reads is in a relation between tokens and meanings. Each way
  to put rules together keeps this (`Reads.pair`, `Reads.orElse`, `Reads.fold`, ...), so a grammar
  made of rules reads nothing but its relation;
* what a rule gives on given tokens, from what its parts give there (`run_pair`, `run_fold`, ...).
  If the parts give the same there as the parts of another rule, so do the rules
  (`run_pair_congr`, `run_fold_congr`, ...). A rule is stuck where one of its parts is
  (`run_pair_eq_error`, ...), and a repetition ends where its phrase is stuck (`fold_exhausts`).

A repetition is about phrases that grow at the right end: `foldFrom` joins one phrase after the
other to what was read already, and so does a left recursive production.
-/

namespace Abacus

namespace Rule

variable {α β γ : Type} {r : Rule α} {s : Rule β}

/-! ## 1. What is read -/

/-- Every phrase of the rule is in the relation. -/
def Reads (r : Rule α) (R : List Token → α → Prop) : Prop :=
  ∀ ts a rest, r.run ts = .ok (a, rest) → ∃ phrase, ts = phrase ++ rest ∧ R phrase a

section Reads

variable {R : List Token → α → Prop} {S : List Token → β → Prop}

theorem reads_fail : (fail : Rule α).Reads R := by
  intro ts a rest h
  cases h

theorem reads_token (kind : TokenKind) :
    (token kind).Reads fun phrase t => phrase = [t] ∧ t.kind = kind := by
  intro ts t rest h
  match ts with
  | [] => cases h
  | u :: ts =>
    simp only [token] at h
    split at h
    · rename_i hk
      cases h
      exact ⟨[t], rfl, rfl, hk⟩
    · cases h

theorem Reads.filterMap {f : α → Option β} (hr : r.Reads R)
    (h : ∀ phrase a b, R phrase a → f a = some b → S phrase b) : (r.filterMap f).Reads S := by
  intro ts b rest hrun
  simp only [Rule.filterMap] at hrun
  split at hrun
  · rename_i a rest' ha
    split at hrun
    · rename_i b' hb
      cases hrun
      obtain ⟨phrase, hts, hR⟩ := hr _ _ _ ha
      exact ⟨phrase, hts, h _ _ _ hR hb⟩
    · cases hrun
  · cases hrun

theorem Reads.map {f : α → β} (hr : r.Reads R) (h : ∀ phrase a, R phrase a → S phrase (f a)) :
    (r.map f).Reads S := by
  intro ts b rest hrun
  simp only [Rule.map] at hrun
  split at hrun
  · rename_i a rest' ha
    cases hrun
    obtain ⟨phrase, hts, hR⟩ := hr _ _ _ ha
    exact ⟨phrase, hts, h _ _ hR⟩
  · cases hrun

theorem Reads.pair (hr : r.Reads R) (hs : s.Reads S) :
    (r.pair s).Reads fun phrase ab => ∃ us vs, phrase = us ++ vs ∧ R us ab.1 ∧ S vs ab.2 := by
  intro ts ab rest hrun
  simp only [Rule.pair] at hrun
  split at hrun
  · rename_i a mid ha
    split at hrun
    · rename_i b rest' hb
      cases hrun
      obtain ⟨us, rfl, hR⟩ := hr _ _ _ ha
      obtain ⟨vs, rfl, hS⟩ := hs _ _ _ hb
      exact ⟨us ++ vs, (List.append_assoc ..).symm, us, vs, rfl, hR, hS⟩
    · cases hrun
  · cases hrun

theorem Reads.left (hr : r.Reads R) (hs : s.Reads S) :
    (r.left s).Reads fun phrase a => ∃ us vs b, phrase = us ++ vs ∧ R us a ∧ S vs b :=
  (hr.pair hs).map fun _ ab ⟨us, vs, hp, hR, hS⟩ => ⟨us, vs, ab.2, hp, hR, hS⟩

theorem Reads.right (hr : r.Reads R) (hs : s.Reads S) :
    (r.right s).Reads fun phrase b => ∃ us vs a, phrase = us ++ vs ∧ R us a ∧ S vs b :=
  (hr.pair hs).map fun _ ab ⟨us, vs, hp, hR, hS⟩ => ⟨us, vs, ab.1, hp, hR, hS⟩

theorem Reads.orElse {r' : Rule α} (hr : r.Reads R) (hr' : r'.Reads R) :
    (r.orElse r').Reads R := by
  intro ts a rest hrun
  simp only [Rule.orElse] at hrun
  split at hrun
  · rename_i reading ha
    cases hrun
    exact hr _ _ _ ha
  · exact hr' _ _ _ hrun

theorem Reads.pairOption {T : List Token → α × Option β → Prop} (hr : r.Reads R) (hs : s.Reads S)
    (hnone : ∀ us a, R us a → T us (a, none))
    (hsome : ∀ us vs a b, R us a → S vs b → T (us ++ vs) (a, some b)) :
    (r.pairOption s).Reads T := by
  intro ts ab rest hrun
  simp only [Rule.pairOption] at hrun
  split at hrun
  · rename_i a mid ha
    obtain ⟨us, rfl, hR⟩ := hr _ _ _ ha
    split at hrun
    · rename_i b rest' hb
      cases hrun
      obtain ⟨vs, rfl, hS⟩ := hs _ _ _ hb
      exact ⟨us ++ vs, (List.append_assoc ..).symm, hsome _ _ _ _ hR hS⟩
    · cases hrun
      exact ⟨us, rfl, hnone _ _ hR⟩
  · cases hrun

/-- A repetition joins phrases at the right end. -/
theorem Reads.foldFrom {f : α → β → α} (hs : s.Reads S)
    (hjoin : ∀ us vs a b, R us a → S vs b → R (us ++ vs) (f a b)) (a : α) (ts : List Token)
    {before : List Token} (ha : R before a) :
    ∃ phrase, ts = phrase ++ (foldFrom s f a ts).2 ∧
      R (before ++ phrase) (foldFrom s f a ts).1 := by
  fun_induction Rule.foldFrom s f a ts generalizing before with
  | case1 a ts b rest hb ih =>
    obtain ⟨us, rfl, hS⟩ := hs _ _ _ hb
    obtain ⟨vs, hvs, hR⟩ := ih (hjoin _ _ _ _ ha hS)
    refine ⟨us ++ vs, ?_, ?_⟩
    · rw [List.append_assoc, ← hvs]
    · rw [← List.append_assoc]
      exact hR
  | case2 a ts => exact ⟨[], rfl, by rwa [List.append_nil]⟩

theorem Reads.fold {f : α → β → α} (hr : r.Reads R) (hs : s.Reads S)
    (hjoin : ∀ us vs a b, R us a → S vs b → R (us ++ vs) (f a b)) : (r.fold s f).Reads R := by
  intro ts a rest hrun
  simp only [Rule.fold] at hrun
  split at hrun
  · rename_i b mid hb
    obtain ⟨us, rfl, hR⟩ := hr _ _ _ hb
    obtain ⟨vs, hvs, hR'⟩ := Reads.foldFrom hs hjoin b mid hR
    rw [Except.ok.inj hrun] at hvs hR'
    exact ⟨us ++ vs, by rw [List.append_assoc, ← hvs], hR'⟩
  · cases hrun

/-- All phrases of a rule, read one behind the other. -/
theorem Reads.many {P : List Token → List β → Prop} (hs : s.Reads S) (hnil : P [] [])
    (hsnoc : ∀ us vs bs b, P us bs → S vs b → P (us ++ vs) (bs ++ [b])) (ts : List Token) :
    ∃ phrase, ts = phrase ++ (s.many ts).2 ∧ P phrase (s.many ts).1 := by
  have hjoin : ∀ us vs (bs : Array β) b, P us bs.toList → S vs b →
      P (us ++ vs) (bs.push b).toList := by
    intro us vs bs b hP hS
    rw [Array.toList_push]
    exact hsnoc _ _ _ _ hP hS
  exact Reads.foldFrom (R := fun phrase bs => P phrase bs.toList) hs hjoin #[] ts hnil

theorem Reads.between {P : List Token → List β → Prop} {c : Rule γ} {C : List Token → γ → Prop}
    (hr : r.Reads R) (hs : s.Reads S) (hc : c.Reads C) (hnil : P [] [])
    (hsnoc : ∀ us vs bs b, P us bs → S vs b → P (us ++ vs) (bs ++ [b])) :
    (between r s c).Reads fun phrase bs =>
      ∃ us vs ws a d, phrase = us ++ (vs ++ ws) ∧ R us a ∧ P vs bs ∧ C ws d := by
  intro ts bs rest hrun
  simp only [Rule.between] at hrun
  split at hrun
  · rename_i a mid ha
    obtain ⟨us, rfl, hR⟩ := hr _ _ _ ha
    obtain ⟨vs, hvs, hP⟩ := hs.many hnil hsnoc mid
    split at hrun
    · rename_i d rest' hd
      cases hrun
      obtain ⟨ws, hws, hC⟩ := hc _ _ _ hd
      refine ⟨us ++ (vs ++ ws), ?_, us, vs, ws, a, d, rfl, hR, hP, hC⟩
      rw [List.append_assoc, List.append_assoc, ← hws, ← hvs]
    · cases hrun
  · cases hrun

end Reads

/-! ## 2. What a rule gives -/

/-- The tokens do not start with a token of one of these kinds. -/
def Avoids (ts : List Token) (kinds : List TokenKind) : Prop := ∀ t ∈ ts.head?, t.kind ∉ kinds

theorem avoids_nil (kinds : List TokenKind) : Avoids [] kinds := by
  intro t ht
  cases ht

theorem avoids_cons {t : Token} {ts : List Token} {kinds : List TokenKind} (h : t.kind ∉ kinds) :
    Avoids (t :: ts) kinds := by
  intro u hu
  cases hu
  exact h

theorem Avoids.mono {ts : List Token} {kinds kinds' : List TokenKind} (h : Avoids ts kinds)
    (hk : ∀ kind ∈ kinds', kind ∈ kinds) : Avoids ts kinds' :=
  fun t ht hm => h t ht (hk _ hm)

section Run

variable {ts mid rest stuck : List Token} {a : α} {b : β}

theorem run_token {t : Token} {kind : TokenKind} (h : t.kind = kind) :
    (token kind).run (t :: rest) = .ok (t, rest) := by
  simp only [token, if_pos h]

theorem run_token_of_avoids {kind : TokenKind} (h : Avoids ts [kind]) :
    (token kind).run ts = .error ts := by
  match ts with
  | [] => rfl
  | t :: ts =>
    have ht : t.kind ≠ kind := by simpa using h t rfl
    simp only [token, if_neg ht]

theorem run_filterMap {f : α → Option β} (h : r.run ts = .ok (a, rest)) (hf : f a = some b) :
    (r.filterMap f).run ts = .ok (b, rest) := by
  simp only [Rule.filterMap, h, hf]

theorem run_filterMap_error {f : α → Option β} (h : r.run ts = .error stuck) :
    (r.filterMap f).run ts = .error stuck := by
  simp only [Rule.filterMap, h]

theorem run_map (f : α → β) (h : r.run ts = .ok (a, rest)) :
    (r.map f).run ts = .ok (f a, rest) := by
  simp only [Rule.map, h]

theorem run_map_error (f : α → β) (h : r.run ts = .error stuck) :
    (r.map f).run ts = .error stuck := by
  simp only [Rule.map, h]

theorem run_pair (hr : r.run ts = .ok (a, mid)) (hs : s.run mid = .ok (b, rest)) :
    (r.pair s).run ts = .ok ((a, b), rest) := by
  simp only [Rule.pair, hr, hs]

theorem exists_of_run_map {f : α → β} (h : (r.map f).run ts = .ok (b, rest)) :
    ∃ a, f a = b ∧ r.run ts = .ok (a, rest) := by
  simp only [Rule.map] at h
  split at h
  · rename_i a rest' ha
    cases h
    exact ⟨a, rfl, ha⟩
  · cases h

theorem exists_of_run_pair (h : (r.pair s).run ts = .ok ((a, b), rest)) :
    ∃ mid, r.run ts = .ok (a, mid) ∧ s.run mid = .ok (b, rest) := by
  simp only [Rule.pair] at h
  split at h
  · rename_i a' mid hr
    split at h
    · rename_i b' rest' hs
      cases h
      exact ⟨mid, hr, hs⟩
    · cases h
  · cases h

theorem exists_of_run_right (h : (r.right s).run ts = .ok (b, rest)) :
    ∃ a mid, r.run ts = .ok (a, mid) ∧ s.run mid = .ok (b, rest) := by
  obtain ⟨⟨a, b'⟩, rfl, hpair⟩ := exists_of_run_map h
  exact ⟨a, exists_of_run_pair hpair⟩

theorem run_pair_error (h : r.run ts = .error stuck) : (r.pair s).run ts = .error stuck := by
  simp only [Rule.pair, h]

theorem run_left (hr : r.run ts = .ok (a, mid)) (hs : s.run mid = .ok (b, rest)) :
    (r.left s).run ts = .ok (a, rest) := run_map _ (run_pair hr hs)

theorem run_left_error (h : r.run ts = .error stuck) : (r.left s).run ts = .error stuck :=
  run_map_error _ (run_pair_error h)

theorem run_right (hr : r.run ts = .ok (a, mid)) (hs : s.run mid = .ok (b, rest)) :
    (r.right s).run ts = .ok (b, rest) := run_map _ (run_pair hr hs)

theorem run_right_error (h : r.run ts = .error stuck) : (r.right s).run ts = .error stuck :=
  run_map_error _ (run_pair_error h)

theorem run_orElse {r' : Rule α} (h : r.run ts = .ok (a, rest)) :
    (r.orElse r').run ts = .ok (a, rest) := by
  simp only [Rule.orElse, h]

theorem run_orElse_of_error {r' : Rule α} (h : r.run ts = .error stuck) :
    (r.orElse r').run ts = r'.run ts := by
  simp only [Rule.orElse, h]

theorem run_pairOption_some (hr : r.run ts = .ok (a, mid)) (hs : s.run mid = .ok (b, rest)) :
    (r.pairOption s).run ts = .ok ((a, some b), rest) := by
  simp only [Rule.pairOption, hr, hs]

theorem run_pairOption_none (hr : r.run ts = .ok (a, rest)) (hs : s.run rest = .error stuck) :
    (r.pairOption s).run ts = .ok ((a, none), rest) := by
  simp only [Rule.pairOption, hr, hs]

theorem exists_of_run_pairOption {o : Option β}
    (h : (r.pairOption s).run ts = .ok ((a, o), rest)) :
    (r.run ts = .ok (a, rest) ∧ ∃ stuck, s.run rest = .error stuck) ∨
      ∃ b mid, r.run ts = .ok (a, mid) ∧ s.run mid = .ok (b, rest) := by
  simp only [Rule.pairOption] at h
  split at h
  · rename_i a' mid hr
    split at h
    · rename_i b rest' hs
      cases h
      exact .inr ⟨b, mid, hr, hs⟩
    · rename_i stuck hs
      cases h
      exact .inl ⟨hr, stuck, hs⟩
  · cases h

theorem exists_of_run_fold {f : α → β → α} (h : (r.fold s f).run ts = .ok (a, rest)) :
    ∃ first mid, r.run ts = .ok (first, mid) ∧ foldFrom s f first mid = (a, rest) := by
  simp only [Rule.fold] at h
  split at h
  · rename_i first mid hr
    exact ⟨first, mid, hr, Except.ok.inj h⟩
  · cases h

/-- A repetition goes on behind a phrase. -/
theorem foldFrom_of_run {f : α → β → α} (h : s.run ts = .ok (b, rest)) (a : α) :
    foldFrom s f a ts = foldFrom s f (f a b) rest := by
  rw [foldFrom]
  split
  · rename_i b' rest' h'
    rw [h] at h'
    cases h'
    rfl
  · rename_i h'
    rw [h] at h'
    cases h'

/-- A repetition ends where there is no phrase. -/
theorem foldFrom_of_error {f : α → β → α} (h : s.run ts = .error stuck) (a : α) :
    foldFrom s f a ts = (a, ts) := by
  rw [foldFrom]
  split
  · rename_i h'
    rw [h] at h'
    cases h'
  · rfl

theorem run_fold {f : α → β → α} (h : r.run ts = .ok (a, mid)) :
    (r.fold s f).run ts = .ok (foldFrom s f a mid) := by
  simp only [Rule.fold, h]

theorem run_between {c : Rule γ} {d : γ} {bs : List β} {mid' : List Token}
    (hr : r.run ts = .ok (a, mid)) (hs : s.many mid = (bs, mid')) (hc : c.run mid' = .ok (d, rest)) :
    (between r s c).run ts = .ok (bs, rest) := by
  simp only [Rule.between, hr, hs, hc]

theorem run_between_error {c : Rule γ} (h : r.run ts = .error stuck) :
    (between r s c).run ts = .error stuck := by
  simp only [Rule.between, h]

end Run

/-! ## 3. Rules that give the same -/

section Congr

variable {r' : Rule α} {s' : Rule β} {ts : List Token}

theorem run_map_congr (f : α → β) (hr : r.run ts = r'.run ts) :
    (r.map f).run ts = (r'.map f).run ts := by
  simp only [Rule.map, hr]

theorem run_orElse_congr {q q' : Rule α} (hr : r.run ts = r'.run ts)
    (hq : ∀ stuck, r'.run ts = .error stuck → q.run ts = q'.run ts) :
    (r.orElse q).run ts = (r'.orElse q').run ts := by
  simp only [Rule.orElse, hr]
  cases h : r'.run ts with
  | error stuck => exact hq stuck h
  | ok reading => rfl

/-- The second rules need to give the same behind the first phrase only. -/
theorem run_pair_congr (hr : r.run ts = r'.run ts)
    (hs : ∀ a mid, r'.run ts = .ok (a, mid) → s.run mid = s'.run mid) :
    (r.pair s).run ts = (r'.pair s').run ts := by
  simp only [Rule.pair, hr]
  cases h : r'.run ts with
  | error stuck => rfl
  | ok reading => simp only [hs _ _ h]

theorem run_left_congr (hr : r.run ts = r'.run ts)
    (hs : ∀ a mid, r'.run ts = .ok (a, mid) → s.run mid = s'.run mid) :
    (r.left s).run ts = (r'.left s').run ts := run_map_congr _ (run_pair_congr hr hs)

theorem run_right_congr (hr : r.run ts = r'.run ts)
    (hs : ∀ a mid, r'.run ts = .ok (a, mid) → s.run mid = s'.run mid) :
    (r.right s).run ts = (r'.right s').run ts := run_map_congr _ (run_pair_congr hr hs)

theorem run_pairOption_congr (hr : r.run ts = r'.run ts)
    (hs : ∀ a mid, r'.run ts = .ok (a, mid) → s.run mid = s'.run mid) :
    (r.pairOption s).run ts = (r'.pairOption s').run ts := by
  simp only [Rule.pairOption, hr]
  cases h : r'.run ts with
  | error stuck => rfl
  | ok reading => simp only [hs _ _ h]

/-- A repetition goes through places of which each phrase leads to the next. It forgets where its
    rule is stuck, so that the phrases alone count. -/
theorem foldFrom_congr {P : List Token → Prop} {f : α → β → α}
    (hs : ∀ ts, P ts → ∀ b rest, s.run ts = .ok (b, rest) ↔ s'.run ts = .ok (b, rest))
    (hnext : ∀ ts b rest, P ts → s'.run ts = .ok (b, rest) → P rest) (a : α) (ts : List Token)
    (hts : P ts) : foldFrom s f a ts = foldFrom s' f a ts := by
  fun_induction Rule.foldFrom s f a ts with
  | case1 a ts b rest h ih =>
    have h' := (hs ts hts b rest).mp h
    rw [foldFrom_of_run h', ih (hnext ts b rest hts h')]
  | case2 a ts stuck h =>
    cases h' : s'.run ts with
    | error stuck' => rw [foldFrom_of_error h']
    | ok reading =>
      rw [(hs ts hts reading.1 reading.2).mpr h'] at h
      cases h

theorem run_fold_congr {f : α → β → α} (hr : r.run ts = r'.run ts)
    (hs : ∀ a mid, r'.run ts = .ok (a, mid) → foldFrom s f a mid = foldFrom s' f a mid) :
    (r.fold s f).run ts = (r'.fold s' f).run ts := by
  simp only [Rule.fold, hr]
  cases h : r'.run ts with
  | error stuck => rfl
  | ok reading => simp only [hs _ _ h]

theorem many_congr {P : List Token → Prop}
    (hs : ∀ ts, P ts → ∀ b rest, s.run ts = .ok (b, rest) ↔ s'.run ts = .ok (b, rest))
    (hnext : ∀ ts b rest, P ts → s'.run ts = .ok (b, rest) → P rest) (hts : P ts) :
    s.many ts = s'.many ts := by
  rw [Rule.many, Rule.many, foldFrom_congr hs hnext #[] ts hts]

theorem run_between_congr {c : Rule γ} (hr : r.run ts = r'.run ts)
    (hs : ∀ a mid, r'.run ts = .ok (a, mid) → s.many mid = s'.many mid) :
    (between r s c).run ts = (between r' s' c).run ts := by
  simp only [Rule.between, hr]
  cases h : r'.run ts with
  | error stuck => rfl
  | ok reading => simp only [hs _ _ h]

end Congr

/-! ## 4. Where a rule is stuck -/

section Error

variable {ts stuck : List Token}

theorem run_token_eq_error {kind : TokenKind} :
    (token kind).run ts = .error stuck ↔ ts = stuck ∧ Avoids ts [kind] := by
  constructor
  · intro h
    cases ts with
    | nil =>
      cases h
      exact ⟨rfl, avoids_nil _⟩
    | cons t rest =>
      simp only [token] at h
      split at h
      · cases h
      · rename_i hk
        cases h
        exact ⟨rfl, avoids_cons (by simpa using hk)⟩
  · intro ⟨hts, h⟩
    rw [← hts]
    exact run_token_of_avoids h

theorem run_map_eq_error {f : α → β} :
    (r.map f).run ts = .error stuck ↔ r.run ts = .error stuck := by
  cases h : r.run ts with
  | error stuck' => simp [Rule.map, h]
  | ok reading => simp [Rule.map, h]

theorem run_pair_eq_error :
    (r.pair s).run ts = .error stuck ↔
      r.run ts = .error stuck ∨ ∃ a mid, r.run ts = .ok (a, mid) ∧ s.run mid = .error stuck := by
  cases h : r.run ts with
  | error stuck' => simp [Rule.pair, h]
  | ok reading =>
    obtain ⟨a, mid⟩ := reading
    cases hs : s.run mid with
    | error stuck' => simp [Rule.pair, h, hs, and_assoc]
    | ok reading' => simp [Rule.pair, h, hs, and_assoc]

theorem run_pair_eq_error_of_run {a : α} {mid : List Token} (hr : r.run ts = .ok (a, mid)) :
    (r.pair s).run ts = .error stuck ↔ s.run mid = .error stuck := by
  simp [run_pair_eq_error, hr, and_assoc]

theorem run_left_eq_error :
    (r.left s).run ts = .error stuck ↔
      r.run ts = .error stuck ∨ ∃ a mid, r.run ts = .ok (a, mid) ∧ s.run mid = .error stuck :=
  run_map_eq_error.trans run_pair_eq_error

theorem run_fold_eq_error {f : α → β → α} :
    (r.fold s f).run ts = .error stuck ↔ r.run ts = .error stuck := by
  cases h : r.run ts with
  | error stuck' => simp [Rule.fold, h]
  | ok reading => simp [Rule.fold, h]

theorem run_pairOption_eq_error :
    (r.pairOption s).run ts = .error stuck ↔ r.run ts = .error stuck := by
  cases h : r.run ts with
  | error stuck' => simp [Rule.pairOption, h]
  | ok reading => cases hs : s.run reading.2 <;> simp [Rule.pairOption, h, hs]

end Error

/-! ## 5. What a rule leaves nothing of -/

section Exhausts

variable {q : Rule γ}

/-- Behind each phrase of the first rule there is none of the second. -/
def Exhausts (r : Rule α) (q : Rule γ) : Prop :=
  ∀ ts a rest, r.run ts = .ok (a, rest) → ∃ stuck, q.run rest = .error stuck

theorem Exhausts.pair (hs : s.Exhausts q) : (r.pair s).Exhausts q := by
  intro ts ⟨a, b⟩ rest h
  obtain ⟨mid, -, hb⟩ := exists_of_run_pair h
  exact hs mid b rest hb

/-- A repetition ends where there is no further phrase. -/
theorem exists_error_of_foldFrom (s : Rule β) (f : α → β → α) (a : α) (ts : List Token) :
    ∃ stuck, s.run (foldFrom s f a ts).2 = .error stuck := by
  fun_induction Rule.foldFrom s f a ts with
  | case1 a ts b rest h ih => exact ih
  | case2 a ts stuck h => exact ⟨stuck, h⟩

theorem fold_exhausts (r : Rule α) (s : Rule β) (f : α → β → α) : (r.fold s f).Exhausts s := by
  intro ts a rest h
  obtain ⟨a', mid, -, hfold⟩ := exists_of_run_fold h
  have hrest := exists_error_of_foldFrom s f a' mid
  rwa [hfold] at hrest

/-- A repetition leaves what its last phrase leaves. -/
theorem Exhausts.fold {f : α → β → α} (hr : r.Exhausts q) (hs : s.Exhausts q) :
    (r.fold s f).Exhausts q := by
  have hfold : ∀ (a : α) (ts : List Token), (∃ stuck, q.run ts = .error stuck) →
      ∃ stuck, q.run (foldFrom s f a ts).2 = .error stuck := by
    intro a ts hts
    fun_induction Rule.foldFrom s f a ts with
    | case1 a ts b rest h ih => exact ih (hs ts b rest h)
    | case2 a ts stuck h => exact hts
  intro ts a rest h
  obtain ⟨a', mid, ha, heq⟩ := exists_of_run_fold h
  have hrest := hfold a' mid (hr ts a' mid ha)
  rwa [heq] at hrest

end Exhausts

end Rule

end Abacus
