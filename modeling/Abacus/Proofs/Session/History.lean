import Abacus.Proofs.Session.Scoping
import Mathlib.Data.Finset.Card
import Mathlib.Data.Finset.Lattice.Fold
import Mathlib.Order.Lattice.Nat

/-!
# The history of the scopes

A name is looked up by place: from the innermost scope outwards. There is another way to say which
value it has, by time: the one that it was given last, in a scope that is still open. This file
proves that the two are the same after any operations, in any order.

* a history lists the operations that were made, the latest one first. A scope is told by the number
  of operations that had been made when it was opened, so a younger scope has a larger number, and
  the global scope has the number zero;
* closing a scope closes the youngest one that is open (`openScopes`), and a value is always given
  in the youngest one (`youngest`);
* for each number of scopes left out at the inside, what is found in the others is what they were
  given last (`getBehind?_ofHistory`). It is this statement that an operation preserves: closing a
  scope only leaves out one more.

Main statement: the value of a name is the one it was given last in a scope that is still open, and
the depth is the number of open scopes (`get?_ofHistory`).
-/

namespace Abacus

namespace Scopes

/-! ## 1. Histories -/

/-- An operation on scopes. -/
inductive Change (α : Type) where
  /-- Opens a scope. -/
  | push
  /-- Closes the innermost scope, unless it is the global one. -/
  | pop
  /-- Closes all scopes but the global one. -/
  | unwind
  /-- Gives a name a value in the innermost scope. -/
  | insert (x : String) (v : α)

/-- The operations that were made, the latest one first. -/
abbrev History (α : Type) : Type := List (Change α)

variable {α : Type}

/-- The scopes after an operation. Where closing the global scope is asked for, nothing changes. -/
def apply (s : Scopes α) : Change α → Scopes α
  | .push => s.push
  | .pop => s.pop?.getD s
  | .unwind => s.unwind
  | .insert x v => s.insert x v

/-- The scopes after all operations, from the global scope alone. -/
def ofHistory : History α → Scopes α
  | [] => empty
  | change :: before => (ofHistory before).apply change

/-! ## 2. The scopes that are open -/

/-- The numbers of the scopes that are open. A scope that is opened is numbered by the operations
    made until then, its own one included; the global scope is zero. What is closed is the youngest
    scope: the global one and those with a younger one among the open ones stay. -/
def openScopes : History α → Finset Nat
  | [] => {0}
  | .push :: before => openScopes before ∪ {before.length + 1}
  | .pop :: before =>
    (openScopes before).filter fun scope => scope = 0 ∨ ∃ other ∈ openScopes before, scope < other
  | .unwind :: before => (openScopes before).filter (· = 0)
  | .insert _ _ :: before => openScopes before

/-- The number of the youngest open scope. A value is given in this one. -/
def youngest (h : History α) : Nat := (openScopes h).sup id

/-- The name was given the value in one of the scopes, and none later in any of them. -/
def IsLatest (scopes : Finset Nat) (h : History α) (x : String) (v : α) : Prop :=
  ∃ after before, h = after ++ .insert x v :: before ∧ youngest before ∈ scopes ∧
    ∀ later w between, after = later ++ .insert x w :: between →
      youngest (between ++ .insert x v :: before) ∉ scopes

/-- The name was given no value in any of the scopes. -/
def IsUnset (scopes : Finset Nat) (h : History α) (x : String) : Prop :=
  ∀ after v before, h = after ++ .insert x v :: before → youngest before ∉ scopes

/-! ## 3. Their order -/

/-- The numbers of the open scopes inside the global one, the innermost first. -/
def pushed : History α → List Nat
  | [] => []
  | .push :: before => (before.length + 1) :: pushed before
  | .pop :: before => (pushed before).tail
  | .unwind :: _ => []
  | .insert _ _ :: before => pushed before

/-- The numbers of the open scopes, the innermost first. -/
def numbers (h : History α) : List Nat := pushed h ++ [0]

theorem length_pushed (h : History α) : (pushed h).length = (ofHistory h).inner.length := by
  induction h with
  | nil => rfl
  | cons change before ih =>
    cases change with
    | push => exact congrArg (· + 1) ih
    | pop =>
      rw [pushed, List.length_tail, ih, ofHistory, apply, pop?]
      cases hi : (ofHistory before).inner with
      | nil => simp [hi]
      | cons frame inner => simp
    | unwind => rfl
    | insert x v =>
      have hdepth := depth_insert (ofHistory before) x v
      exact ih.trans (Nat.succ.inj hdepth).symm

/-- An inner scope is younger than those around it, and was opened by one of the operations. -/
theorem pushed_sorted (h : History α) :
    (pushed h).Pairwise (· > ·) ∧ ∀ scope ∈ pushed h, 0 < scope ∧ scope ≤ h.length := by
  induction h with
  | nil => simp [pushed]
  | cons change before ih =>
    obtain ⟨hsorted, hbound⟩ := ih
    have hlater : ∀ scope ∈ pushed before, 0 < scope ∧ scope ≤ (change :: before).length := by
      intro scope hs
      have hle := hbound scope hs
      exact ⟨hle.1, Nat.le_succ_of_le hle.2⟩
    cases change with
    | push =>
      refine ⟨List.pairwise_cons.mpr ⟨fun scope hs => ?_, hsorted⟩, ?_⟩
      · have hle := (hbound scope hs).2
        omega
      · exact List.forall_mem_cons.mpr ⟨⟨Nat.succ_pos _, Nat.le_refl _⟩, hlater⟩
    | pop => exact ⟨hsorted.tail, fun scope hs => hlater scope (List.mem_of_mem_tail hs)⟩
    | unwind => simp [pushed]
    | insert x v => exact ⟨hsorted, hlater⟩

theorem numbers_sorted (h : History α) : (numbers h).Pairwise (· > ·) := by
  obtain ⟨hsorted, hbound⟩ := pushed_sorted h
  refine List.pairwise_append.mpr ⟨hsorted, List.pairwise_singleton _ _, fun scope hs other ho => ?_⟩
  rw [List.mem_singleton.mp ho]
  exact (hbound scope hs).1

/-- Closing a scope takes the innermost one from the list: all others but the global one have a
    younger one in front of them. -/
theorem mem_numbers_pop (before : History α) (scope : Nat) :
    scope ∈ numbers (.pop :: before) ↔
      scope ∈ numbers before ∧ (scope = 0 ∨ ∃ other ∈ numbers before, scope < other) := by
  have hsorted := numbers_sorted before
  simp only [numbers, pushed] at hsorted ⊢
  cases hp : pushed before with
  | nil => simp
  | cons inner outer =>
    rw [hp, List.cons_append, List.pairwise_cons] at hsorted
    rw [List.tail_cons, List.cons_append]
    constructor
    · intro hmem
      exact ⟨List.mem_cons_of_mem _ hmem, .inr ⟨inner, List.mem_cons_self, hsorted.1 _ hmem⟩⟩
    · intro hkept
      obtain ⟨hmem, hyounger⟩ := hkept
      refine (List.mem_cons.mp hmem).resolve_left fun hinner => ?_
      rw [hinner] at hyounger
      rcases hyounger with hzero | ⟨other, hother, hlt⟩
      · exact Nat.ne_of_gt (hsorted.1 0 (by simp)) hzero
      · rcases List.mem_cons.mp hother with heq | hother
        · exact Nat.ne_of_gt hlt heq
        · exact Nat.lt_asymm hlt (hsorted.1 other hother)

/-- **The open scopes are those of the list.** -/
theorem mem_openScopes (h : History α) (scope : Nat) :
    scope ∈ openScopes h ↔ scope ∈ numbers h := by
  induction h generalizing scope with
  | nil => rfl
  | cons change before ih =>
    cases change with
    | push =>
      rw [openScopes, Finset.mem_union, Finset.mem_singleton, ih, or_comm]
      exact List.mem_cons.symm
    | pop =>
      rw [mem_numbers_pop]
      simp only [openScopes, Finset.mem_filter, ih]
    | unwind =>
      have hglobal : 0 ∈ numbers before := List.mem_append_right _ (List.mem_singleton_self 0)
      have hnumbers : numbers (.unwind :: before) = [0] := rfl
      rw [openScopes, Finset.mem_filter, ih, hnumbers, List.mem_singleton]
      constructor
      · exact fun h => h.2
      · intro hzero
        exact ⟨hzero ▸ hglobal, hzero⟩
    | insert x v => exact ih scope

/-- The innermost scope is the youngest one. -/
theorem exists_numbers_eq (h : History α) :
    ∃ others, numbers h = youngest h :: others ∧ ∀ scope ∈ others, scope < youngest h := by
  have hsorted := numbers_sorted h
  have hmem := mem_openScopes h
  obtain ⟨first, others, hn⟩ : ∃ first others, numbers h = first :: others :=
    List.exists_cons_of_ne_nil (by simp [numbers])
  rw [hn] at hsorted hmem
  have hyoung : youngest h = first := by
    refine Nat.le_antisymm (Finset.sup_le fun scope hs => ?_) ?_
    · rcases List.mem_cons.mp ((hmem scope).mp hs) with rfl | hs
      · exact Nat.le_refl _
      · exact Nat.le_of_lt ((List.pairwise_cons.mp hsorted).1 scope hs)
    · exact Finset.le_sup (f := id) ((hmem first).mpr List.mem_cons_self)
  rw [hyoung]
  exact ⟨others, hn, (List.pairwise_cons.mp hsorted).1⟩

theorem youngest_le (h : History α) : youngest h ≤ h.length := by
  refine Finset.sup_le fun scope hs => ?_
  rcases List.mem_append.mp ((mem_openScopes h scope).mp hs) with hs | hs
  · exact ((pushed_sorted h).2 scope hs).2
  · rw [List.mem_singleton.mp hs]
    exact Nat.zero_le _

/-! ## 4. The value that was given last -/

/-- The value that the name was given last in one of the scopes. -/
def latest? (scopes : Finset Nat) : History α → String → Option α
  | [], _ => none
  | .insert y v :: before, x =>
    if y = x ∧ youngest before ∈ scopes then some v else latest? scopes before x
  | _ :: before, x => latest? scopes before x

section Latest

variable {scopes : Finset Nat} {before : History α} {change : Change α} {x : String}

/-- An operation that gives the name no value in the scopes is passed over. -/
theorem isLatest_cons (hskip : ∀ w, change = .insert x w → youngest before ∉ scopes) {v : α} :
    IsLatest scopes (change :: before) x v ↔ IsLatest scopes before x v := by
  constructor
  · rintro ⟨after, earlier, hsplit, hmem, hlast⟩
    rcases List.cons_eq_append_iff.mp hsplit with ⟨rfl, hinsert⟩ | ⟨after, rfl, rfl⟩
    · obtain ⟨rfl, rfl⟩ := List.cons.inj hinsert
      exact absurd hmem (hskip v rfl)
    · refine ⟨after, earlier, rfl, hmem, fun later w between h => ?_⟩
      exact hlast (change :: later) w between (congrArg _ h)
  · rintro ⟨after, earlier, rfl, hmem, hlast⟩
    refine ⟨change :: after, earlier, rfl, hmem, fun later w between h => ?_⟩
    rcases List.cons_eq_append_iff.mp h with ⟨rfl, hinsert⟩ | ⟨later, rfl, hafter⟩
    · obtain ⟨rfl, rfl⟩ := List.cons.inj hinsert
      exact hskip w rfl
    · exact hlast later w between hafter

theorem isUnset_cons (hskip : ∀ w, change = .insert x w → youngest before ∉ scopes) :
    IsUnset scopes (change :: before) x ↔ IsUnset scopes before x := by
  constructor
  · rintro h after v earlier rfl
    exact h (change :: after) v earlier rfl
  · intro h after v earlier hsplit
    rcases List.cons_eq_append_iff.mp hsplit with ⟨rfl, hinsert⟩ | ⟨after, rfl, hafter⟩
    · obtain ⟨rfl, rfl⟩ := List.cons.inj hinsert
      exact hskip v rfl
    · exact h after v earlier hafter

/-- A value that was just given in one of the scopes is the latest one. -/
theorem isLatest_insert_self (hmem : youngest before ∈ scopes) {v w : α} :
    IsLatest scopes (.insert x v :: before) x w ↔ v = w := by
  constructor
  · rintro ⟨after, earlier, hsplit, -, hlast⟩
    rcases List.cons_eq_append_iff.mp hsplit with ⟨rfl, hinsert⟩ | ⟨after, rfl, rfl⟩
    · cases hinsert
      rfl
    · exact absurd hmem (hlast [] v after rfl)
  · rintro rfl
    exact ⟨[], before, rfl, hmem, fun later w between h => by simp at h⟩

end Latest

/-- What was given last comes behind the other values of the name in these scopes. -/
theorem latest?_spec (scopes : Finset Nat) (h : History α) (x : String) :
    (∀ v, latest? scopes h x = some v ↔ IsLatest scopes h x v) ∧
      (latest? scopes h x = none ↔ IsUnset scopes h x) := by
  induction h with
  | nil => simp [latest?, IsLatest, IsUnset]
  | cons change before ih =>
    have skip (hskip : ∀ w, change = .insert x w → youngest before ∉ scopes)
        (heq : latest? scopes (change :: before) x = latest? scopes before x) :
        (∀ v, latest? scopes (change :: before) x = some v ↔
          IsLatest scopes (change :: before) x v) ∧
        (latest? scopes (change :: before) x = none ↔ IsUnset scopes (change :: before) x) := by
      rw [heq, isUnset_cons hskip]
      exact ⟨fun v => (ih.1 v).trans (isLatest_cons hskip).symm, ih.2⟩
    cases change with
    | push | pop | unwind => exact skip (fun w hw => by cases hw) rfl
    | insert y v =>
      by_cases hmem : y = x ∧ youngest before ∈ scopes
      · obtain ⟨rfl, hmem⟩ := hmem
        rw [latest?, if_pos ⟨rfl, hmem⟩]
        refine ⟨fun w => ?_, ?_⟩
        · rw [isLatest_insert_self hmem, Option.some.injEq]
        · simp only [reduceCtorEq, false_iff]
          exact fun hunset => hunset [] v before rfl hmem
      · refine skip (fun w hw hyoung => ?_) (if_neg hmem)
        cases hw
        exact hmem ⟨rfl, hyoung⟩

/-- Scopes that were opened later were given none of the values. -/
theorem latest?_congr {scopes others : Finset Nat} (h : History α) (x : String)
    (hsame : ∀ scope ≤ h.length, scope ∈ scopes ↔ scope ∈ others) :
    latest? scopes h x = latest? others h x := by
  induction h with
  | nil => rfl
  | cons change before ih =>
    have hbefore := ih fun scope hle => hsame scope (Nat.le_succ_of_le hle)
    cases change with
    | push | pop | unwind => exact hbefore
    | insert y v =>
      have hyoung := hsame (youngest before) (Nat.le_succ_of_le (youngest_le before))
      simp only [latest?, hyoung, hbefore]

/-! ## 5. What is found in the outer scopes -/

/-- What is found if the given number of scopes is left out at the inside. -/
def getBehind? (s : Scopes α) (k : Nat) (x : String) : Option α :=
  (s.frames.drop k).findSome? (·.get? x)

/-- Closing a scope leaves out one more, unless only the global one is open. -/
theorem getBehind?_pop (s : Scopes α) (k : Nat) (x : String) :
    (s.apply .pop).getBehind? k x =
      if s.inner = [] then s.getBehind? k x else s.getBehind? (k + 1) x := by
  obtain ⟨inner, globals⟩ := s
  cases inner with
  | nil => rfl
  | cons frame inner => rfl

/-- Closing all inner scopes leaves out so many more. -/
theorem getBehind?_unwind (s : Scopes α) (k : Nat) (x : String) :
    s.unwind.getBehind? k x = s.getBehind? (s.inner.length + k) x := by
  rw [getBehind?, getBehind?, ← List.drop_drop, frames, frames, List.drop_left]
  rfl

/-- A value given in the innermost scope is not seen where that one is left out. -/
theorem getBehind?_insert_succ (s : Scopes α) (y : String) (v : α) (k : Nat) (x : String) :
    (s.insert y v).getBehind? (k + 1) x = s.getBehind? (k + 1) x := by
  have hout : (s.insert y v).frames.tail = s.frames.tail := outside_insert s y v
  rw [getBehind?, getBehind?, ← List.drop_tail, ← List.drop_tail, hout]

/-- A value that is given in the youngest scope is the latest one there, and where this scope is left
    out nothing has changed. -/
theorem getBehind?_insert {s : Scopes α} {before : History α} {x : String}
    (h : ∀ k, s.getBehind? k x = latest? ((numbers before).drop k).toFinset before x)
    (y : String) (v : α) (k : Nat) :
    (s.insert y v).getBehind? k x =
      latest? ((numbers before).drop k).toFinset (.insert y v :: before) x := by
  obtain ⟨others, hnumbers, hlt⟩ := exists_numbers_eq before
  rw [hnumbers] at h ⊢
  cases k with
  | zero =>
    have hmem : youngest before ∈ (youngest before :: others).toFinset := by simp
    have hget := h 0
    rw [List.drop_zero] at hget ⊢
    by_cases hxy : y = x
    · subst hxy
      rw [latest?, if_pos ⟨rfl, hmem⟩]
      exact get?_insert_self _ _ _
    · rw [latest?, if_neg (fun hboth => hxy hboth.1), ← hget]
      exact get?_insert_of_ne _ _ hxy
  | succ k =>
    have hnot : youngest before ∉ (others.drop k).toFinset := by
      intro hmem
      exact Nat.lt_irrefl _ (hlt _ (List.mem_of_mem_drop (List.mem_toFinset.mp hmem)))
    rw [getBehind?_insert_succ, h, List.drop_succ_cons, latest?,
      if_neg (fun hboth => hnot hboth.2)]

/-- **With the inner scopes left out, the name has the value that it was given last in the others.**
    Each operation preserves this for every number of scopes that are left out. -/
theorem getBehind?_ofHistory (h : History α) (k : Nat) (x : String) :
    (ofHistory h).getBehind? k x = latest? ((numbers h).drop k).toFinset h x := by
  induction h generalizing k with
  | nil =>
    cases k with
    | zero => rfl
    | succ k => rw [getBehind?, List.drop_of_length_le (by simp [ofHistory, empty, frames])]; rfl
  | cons change before ih =>
    have hlen := length_pushed before
    cases change with
    | push =>
      cases k with
      | zero =>
        have hfresh : (ofHistory before).push.getBehind? 0 x = (ofHistory before).getBehind? 0 x :=
          rfl
        rw [ofHistory, apply, hfresh, ih]
        refine latest?_congr before x fun scope hle => ?_
        have hne : scope ≠ before.length + 1 := by omega
        simp [numbers, pushed, hne]
      | succ k => exact ih k
    | pop =>
      rw [ofHistory, getBehind?_pop, ih, ih]
      cases hp : pushed before with
      | nil =>
        rw [hp] at hlen
        rw [if_pos (List.length_eq_zero_iff.mp hlen.symm)]
        simp only [numbers, pushed, hp, List.tail_nil]
        rfl
      | cons inner outer =>
        rw [hp] at hlen
        rw [if_neg (List.ne_nil_of_length_pos (by rw [← hlen]; exact Nat.succ_pos _))]
        simp only [numbers, pushed, hp, List.tail_cons]
        rfl
    | unwind =>
      rw [ofHistory, apply, getBehind?_unwind, ih, ← hlen, ← List.drop_drop, numbers,
        List.drop_left]
      rfl
    | insert y v => exact getBehind?_insert ih y v k

theorem lookup_eq_ok_iff {s : Scopes α} {x : String} {v : α} :
    s.lookup x = .ok v ↔ s.get? x = some v := by
  rw [lookup]
  cases s.get? x with
  | none => simp
  | some w => simp

theorem lookup_eq_error_iff {s : Scopes α} {x : String} :
    s.lookup x = .error (.undefined x) ↔ s.get? x = none := by
  rw [lookup]
  cases s.get? x with
  | none => simp
  | some w => simp

theorem openScopes_eq (h : History α) : openScopes h = (numbers h).toFinset := by
  ext scope
  rw [mem_openScopes, List.mem_toFinset]

/-- The open scopes inside the global one are as many as were opened and not closed. -/
theorem card_erase_openScopes (h : History α) :
    ((openScopes h).erase 0).card = (ofHistory h).inner.length := by
  obtain ⟨hsorted, hbound⟩ := pushed_sorted h
  have herase : (openScopes h).erase 0 = (pushed h).toFinset := by
    ext scope
    rw [Finset.mem_erase, mem_openScopes, numbers, List.mem_append, List.mem_singleton,
      List.mem_toFinset]
    constructor
    · rintro ⟨hne, hmem⟩
      exact hmem.resolve_right hne
    · intro hmem
      exact ⟨Nat.ne_of_gt (hbound scope hmem).1, .inl hmem⟩
  rw [herase, List.toFinset_card_of_nodup (hsorted.imp Nat.ne_of_gt), length_pushed]

/-- **A name has the value that it was given last in a scope that is still open.** If no such scope
    was given a value of it, looking it up is an error. The depth is the number of the open scopes,
    of which the global one never closes. -/
theorem get?_ofHistory (h : History α) (x : String) :
    (∀ v, ((ofHistory h).get? x = some v ↔ IsLatest (openScopes h) h x v) ∧
      ((ofHistory h).lookup x = .ok v ↔ IsLatest (openScopes h) h x v)) ∧
    ((ofHistory h).get? x = none ↔ IsUnset (openScopes h) h x) ∧
    ((ofHistory h).lookup x = .error (.undefined x) ↔ IsUnset (openScopes h) h x) ∧
    (ofHistory h).depth = 1 + ((openScopes h).erase 0).card ∧
    ((ofHistory h).pop? = none ↔ (openScopes h).erase 0 = ∅) := by
  have hget : (ofHistory h).get? x = latest? (openScopes h) h x := by
    rw [openScopes_eq]
    exact getBehind?_ofHistory h 0 x
  obtain ⟨hlatest, hunset⟩ := latest?_spec (openScopes h) h x
  simp only [lookup_eq_ok_iff, lookup_eq_error_iff, and_self]
  rw [hget]
  refine ⟨hlatest, hunset, hunset, ?_, ?_⟩
  · rw [depth, card_erase_openScopes, Nat.add_comm]
  · rw [← Finset.card_eq_zero, card_erase_openScopes, List.length_eq_zero_iff, pop?]
    cases (ofHistory h).inner with
    | nil => simp
    | cons frame inner => simp

end Scopes

end Abacus
