import FloorHeating.Lib.Runs
import Mathlib.Data.Nat.Init
import Mathlib.Order.Nat

/-!
# Threads that take locks

Nothing here knows what the locks guard. A thread is the list of what it has
yet to do. A discipline ranks the locks, limits how many steps a thread holds
one and names the calls it may make meanwhile. Any number of threads that keep
it never block each other for long.
-/

namespace FloorHeating.Lib

inductive LockOp (L C : Type) where
  | acquire (l : L)
  | release (l : L)
  | call (c : C)
deriving DecidableEq

structure Discipline (L C : Type) where
  /-- A thread takes only locks of a higher rank than those it holds. -/
  rank : L → Nat
  /-- A thread gives a lock back within that many steps of its own. -/
  limit : L → Nat
  /-- What a thread may call while it holds the lock. -/
  allowed : L → C → Bool

/-! ## One thread -/

/-- The locks of a thread, the last one first, each with the steps that are left for it. -/
abbrev Held (L : Type) := List (L × Nat)

section Thread

variable {L C : Type}

def Held.spent (h : Held L) : Held L := h.map fun x => (x.1, x.2 - 1)

def Held.spend (h : Held L) : Option (Held L) := if ∀ x ∈ h, 0 < x.2 then some h.spent else none

theorem spend_eq {h h' : Held L} (hs : h.spend = some h') : (∀ x ∈ h, 0 < x.2) ∧ h' = h.spent := by
  unfold Held.spend at hs
  split at hs
  · rename_i hpos
    exact ⟨hpos, (Option.some.inj hs).symm⟩
  · cases hs

theorem spend_some {h : Held L} (hpos : ∀ x ∈ h, 0 < x.2) : h.spend = some h.spent := if_pos hpos

@[simp] theorem spent_locks (h : Held L) : h.spent.map Prod.fst = h.map Prod.fst := by
  simp [Held.spent]

theorem mem_spent {h : Held L} {x : L × Nat} : x ∈ h.spent ↔ ∃ y ∈ h, (y.1, y.2 - 1) = x := by
  simp [Held.spent]

variable [DecidableEq L]

def Discipline.op (P : Discipline L C) (h : Held L) : LockOp L C → Option (Held L)
  | .acquire l => if ∀ x ∈ h, P.rank x.1 < P.rank l then h.spend.map ((l, P.limit l) :: ·) else none
  | .release l =>
    match h with
    | (l', n) :: rest => if l' = l ∧ 0 < n then Held.spend rest else none
    | [] => none
  | .call c => if ∀ x ∈ h, P.allowed x.1 c then h.spend else none

/-- A thread that holds `h` may do `w`, and has given back all its locks then. -/
def Discipline.Keeps (P : Discipline L C) (h : Held L) (w : List (LockOp L C)) : Prop := w.foldlM P.op h = some []

inductive Does (P : Discipline L C) (h : Held L) : LockOp L C → Held L → Prop where
  | acquire (l : L) (hrank : ∀ x ∈ h, P.rank x.1 < P.rank l) : Does P h (.acquire l) ((l, P.limit l) :: h.spent)
  | release (l : L) (n : Nat) (rest : Held L) (heq : h = (l, n) :: rest) : Does P h (.release l) rest.spent
  | call (c : C) (hcall : ∀ x ∈ h, P.allowed x.1 c = true) : Does P h (.call c) h.spent

variable {P : Discipline L C}

theorem op_does {h h' : Held L} {a : LockOp L C} (ho : P.op h a = some h') : (∀ x ∈ h, 0 < x.2) ∧ Does P h a h' := by
  cases a with
  | acquire l =>
    simp only [Discipline.op] at ho
    split at ho
    · rename_i hrank
      obtain ⟨g, hg, rfl⟩ := Option.map_eq_some_iff.mp ho
      obtain ⟨hpos, rfl⟩ := spend_eq hg
      exact ⟨hpos, .acquire l hrank⟩
    · cases ho
  | release l =>
    cases h with
    | nil => cases ho
    | cons x rest =>
      simp only [Discipline.op] at ho
      split at ho
      · rename_i hx
        obtain ⟨hpos, rfl⟩ := spend_eq ho
        refine ⟨List.forall_mem_cons.mpr ⟨hx.2, hpos⟩, .release l x.2 rest ?_⟩
        rw [← hx.1]
      · cases ho
  | call c =>
    simp only [Discipline.op] at ho
    split at ho
    · rename_i hcall
      obtain ⟨hpos, rfl⟩ := spend_eq ho
      exact ⟨hpos, .call c hcall⟩
    · cases ho

theorem keeps_cons {h : Held L} {a : LockOp L C} {w : List (LockOp L C)} :
    P.Keeps h (a :: w) ↔ ∃ h', P.op h a = some h' ∧ P.Keeps h' w := by
  simp [Discipline.Keeps, List.foldlM_cons, Option.bind_eq_some_iff]

/-- Who holds a lock has something left to do. -/
theorem keeps_nil {h : Held L} : P.Keeps h [] ↔ h = [] := by
  simp [Discipline.Keeps]

end Thread

/-! ## Many threads -/

structure Threads (ι L C : Type) where
  todo : ι → List (LockOp L C)
  holder : L → Option ι

section System

variable {ι L C : Type} [DecidableEq ι] [DecidableEq L]

/-- A thread that wants a lock of another one waits. -/
def Threads.step (s : Threads ι L C) (i : ι) : Threads ι L C :=
  match s.todo i with
  | [] => s
  | .acquire l :: rest =>
    match s.holder l with
    | none => ⟨Function.update s.todo i rest, Function.update s.holder l (some i)⟩
    | some _ => s
  | .release l :: rest => ⟨Function.update s.todo i rest, Function.update s.holder l none⟩
  | .call _ :: rest => { s with todo := Function.update s.todo i rest }

def threadsAfter (prog : ι → List (LockOp L C)) (schedule : List ι) : Threads ι L C :=
  run Threads.step ⟨prog, fun _ => none⟩ schedule

def Threads.CallsOnly (Q : C → Prop) : Threads ι L C → List ι → Prop
  | _, [] => True
  | s, i :: schedule => (∀ c rest, s.todo i = .call c :: rest → Q c) ∧ (s.step i).CallsOnly Q schedule

/-- What the threads hold is what the locks know, and each keeps to the discipline from here on. -/
structure Disciplined (P : Discipline L C) (s : Threads ι L C) (held : ι → Held L) : Prop where
  keeps : ∀ i, P.Keeps (held i) (s.todo i)
  holder : ∀ i l, s.holder l = some i ↔ l ∈ (held i).map Prod.fst
  ranked : ∀ i, (held i).Pairwise fun x y => P.rank y.1 < P.rank x.1
  limited : ∀ i, ∀ x ∈ held i, x.2 ≤ P.limit x.1

variable {P : Discipline L C} {s : Threads ι L C} {held : ι → Held L}

theorem todo_step {i j : ι} (hne : j ≠ i) : (s.step i).todo j = s.todo j := by
  unfold Threads.step
  split
  · rfl
  · split
    · exact Function.update_of_ne hne ..
    · rfl
  · exact Function.update_of_ne hne ..
  · exact Function.update_of_ne hne ..

theorem step_suffix (s : Threads ι L C) (i j : ι) : (s.step i).todo j <:+ s.todo j := by
  by_cases hj : j = i
  · subst hj
    unfold Threads.step
    split
    · exact List.suffix_refl _
    · rename_i l rest htodo
      split
      · simp [htodo]
      · exact List.suffix_refl _
    · rename_i l rest htodo
      simp [htodo]
    · rename_i c rest htodo
      simp [htodo]
  · simp only [todo_step hj, List.suffix_refl]

/-- A thread has nothing else to do than what it had at first. -/
theorem todo_suffix (prog : ι → List (LockOp L C)) (schedule : List ι) (j : ι) :
    (threadsAfter prog schedule).todo j <:+ prog j := by
  induction schedule using List.reverseRecOn with
  | nil => exact List.suffix_refl _
  | append_singleton schedule i ih =>
    unfold threadsAfter at *
    rw [run_snoc]
    exact (step_suffix _ i j).trans ih

theorem disciplined_update (h : Disciplined P s held) {i : ι} {a : LockOp L C} {rest : List (LockOp L C)}
    {h' : Held L} {holder : L → Option ι} (hdoes : Does P (held i) a h') (hrest : P.Keeps h' rest)
    (hholder : ∀ l j, holder l = some j ↔ l ∈ ((Function.update held i h') j).map Prod.fst) :
    Disciplined P ⟨Function.update s.todo i rest, holder⟩ (Function.update held i h') where
  keeps j := by
    by_cases hj : j = i
    · subst hj
      simpa using hrest
    · simpa [hj] using h.keeps j
  holder j l := hholder l j
  ranked j := by
    by_cases hj : j = i
    · subst hj
      rw [Function.update_self]
      have hranked := h.ranked j
      cases hdoes with
      | acquire l hrank =>
        refine List.pairwise_cons.mpr ⟨?_, ?_⟩
        · intro x hx
          obtain ⟨y, hy, rfl⟩ := mem_spent.mp hx
          exact hrank y hy
        · exact List.pairwise_map.mpr hranked
      | release l n rest heq =>
        rw [heq] at hranked
        exact List.pairwise_map.mpr (List.pairwise_cons.mp hranked).2
      | call c _ => exact List.pairwise_map.mpr hranked
    · rw [Function.update_of_ne hj]
      exact h.ranked j
  limited j := by
    by_cases hj : j = i
    · subst hj
      rw [Function.update_self]
      have hspent (g : Held L) (hg : ∀ x ∈ g, x.2 ≤ P.limit x.1) : ∀ x ∈ g.spent, x.2 ≤ P.limit x.1 := by
        intro x hx
        obtain ⟨y, hy, rfl⟩ := mem_spent.mp hx
        exact (Nat.sub_le _ _).trans (hg y hy)
      cases hdoes with
      | acquire l _ => exact List.forall_mem_cons.mpr ⟨le_refl _, hspent _ (h.limited j)⟩
      | release l n rest heq =>
        have hlimited := h.limited j
        rw [heq] at hlimited
        exact hspent _ (List.forall_mem_cons.mp hlimited).2
      | call c _ => exact hspent _ (h.limited j)
    · rw [Function.update_of_ne hj]
      exact h.limited j

/-- A thread that need not wait goes on. -/
theorem goes_on (h : Disciplined P s held) {i : ι} {a : LockOp L C} {rest : List (LockOp L C)}
    (htodo : s.todo i = a :: rest) (hfree : ∀ l, a = .acquire l → s.holder l = none) :
    ∃ h', (∀ x ∈ held i, 0 < x.2) ∧ Does P (held i) a h' ∧ Disciplined P (s.step i) (Function.update held i h') := by
  have hkeeps := h.keeps i
  rw [htodo] at hkeeps
  obtain ⟨h', hop, hrest⟩ := keeps_cons.mp hkeeps
  obtain ⟨hpos, hdoes⟩ := op_does hop
  refine ⟨h', hpos, hdoes, ?_⟩
  cases hdoes with
  | acquire l hrank =>
    have hstep : s.step i = ⟨Function.update s.todo i rest, Function.update s.holder l (some i)⟩ := by
      simp [Threads.step, htodo, hfree l rfl]
    rw [hstep]
    refine disciplined_update h (.acquire l hrank) hrest ?_
    intro m j
    have hj := h.holder j m
    by_cases hm : m = l
    · subst hm
      rw [hfree m rfl] at hj
      by_cases hji : j = i
      · simp [hji]
      · simpa [hji, Ne.symm hji] using hj
    · by_cases hji : j = i
      · subst hji
        simpa [hm] using hj
      · simpa [hm, hji] using hj
  | release l n tail heq =>
    have hstep : s.step i = ⟨Function.update s.todo i rest, Function.update s.holder l none⟩ := by
      simp [Threads.step, htodo]
    rw [hstep]
    refine disciplined_update h (.release l n tail heq) hrest ?_
    have hranked := h.ranked i
    rw [heq] at hranked
    have hgone : l ∉ tail.map Prod.fst := by
      intro hl
      obtain ⟨x, hx, rfl⟩ := List.mem_map.mp hl
      exact lt_irrefl _ ((List.pairwise_cons.mp hranked).1 x hx)
    intro m j
    have hj := h.holder j m
    by_cases hm : m = l
    · subst hm
      have hi : s.holder m = some i := (h.holder i m).mpr (by rw [heq]; exact List.mem_cons_self)
      by_cases hji : j = i
      · simpa [hji] using hgone
      · rw [hi] at hj
        simpa [hji, Ne.symm hji] using hj
    · by_cases hji : j = i
      · subst hji
        rw [heq] at hj
        simpa [hm] using hj
      · simpa [hm, hji] using hj
  | call c hcall =>
    have hstep : s.step i = { s with todo := Function.update s.todo i rest } := by
      simp [Threads.step, htodo]
    rw [hstep]
    refine disciplined_update h (.call c hcall) hrest ?_
    intro m j
    have hj := h.holder j m
    by_cases hji : j = i
    · subst hji
      simpa using hj
    · simpa [hji] using hj

omit [DecidableEq ι] [DecidableEq L] in
theorem free_of_not_waiting {a : LockOp L C} (h : ¬ ∃ l k, a = .acquire l ∧ s.holder l = some k) :
    ∀ l, a = .acquire l → s.holder l = none := by
  intro l ha
  by_contra hheld
  obtain ⟨k, hk⟩ := Option.ne_none_iff_exists'.mp hheld
  exact h ⟨l, k, ha, hk⟩

theorem waits_step {i k : ι} {l : L} {rest : List (LockOp L C)} (htodo : s.todo i = .acquire l :: rest)
    (hk : s.holder l = some k) : s.step i = s := by
  simp [Threads.step, htodo, hk]

theorem disciplined_step (h : Disciplined P s held) (i : ι) : ∃ held', Disciplined P (s.step i) held' := by
  cases htodo : s.todo i with
  | nil =>
    have hstep : s.step i = s := by simp [Threads.step, htodo]
    rw [hstep]
    exact ⟨held, h⟩
  | cons a rest =>
    by_cases hwait : ∃ l k, a = .acquire l ∧ s.holder l = some k
    · obtain ⟨l, k, rfl, hk⟩ := hwait
      rw [waits_step htodo hk]
      exact ⟨held, h⟩
    · obtain ⟨h', -, -, hnext⟩ := goes_on h htodo (free_of_not_waiting hwait)
      exact ⟨_, hnext⟩

theorem disciplined_run {prog : ι → List (LockOp L C)} (hprog : ∀ i, P.Keeps [] (prog i)) (schedule : List ι) :
    ∃ held, Disciplined P (threadsAfter prog schedule) held := by
  induction schedule using List.reverseRecOn with
  | nil =>
    refine ⟨fun _ => [], ⟨hprog, ?_, ?_, ?_⟩⟩
    · intro i l
      simp [threadsAfter, run]
    · intro i
      exact List.Pairwise.nil
    · intro i x hx
      cases hx
  | append_singleton schedule i ih =>
    obtain ⟨held, h⟩ := ih
    rw [threadsAfter, run_snoc]
    exact disciplined_step h i

/-! ## Waiting -/

/-- So many steps of the others are enough for a thread to get the lock it waits for. -/
structure Discipline.Delay (P : Discipline L C) (delay : L → Nat) : Prop where
  steps : ∀ l, ∃ m, (∀ l', P.rank l < P.rank l' → delay l' ≤ m) ∧ P.limit l * (m + 1) ≤ delay l
  stricter : ∀ l l' c, P.rank l < P.rank l' → P.allowed l' c = true → P.allowed l c = true

/-- Within `n` steps `l` is free. Only threads that hold `l` or a lock above it make them. -/
def Freed (P : Discipline L C) (s : Threads ι L C) (held : ι → Held L) (l : L) (n : Nat) : Prop :=
  ∃ schedule held', schedule.length ≤ n ∧ s.CallsOnly (fun c => P.allowed l c = true) schedule ∧
    Disciplined P (run Threads.step s schedule) held' ∧ (run Threads.step s schedule).holder l = none ∧
    ∀ i, (∀ x ∈ held i, P.rank x.1 < P.rank l) → i ∉ schedule ∧ held' i = held i

variable {l : L} {j : ι} {m n : Nat}

theorem Freed.mono (h : Freed P s held l m) (hle : m ≤ n) : Freed P s held l n := by
  obtain ⟨schedule, held', hlen, hrest⟩ := h
  exact ⟨schedule, held', hlen.trans hle, hrest⟩

omit [DecidableEq ι] [DecidableEq L] in
theorem holder_not_below (hj : (l, n) ∈ held j) {i : ι} (hi : ∀ x ∈ held i, P.rank x.1 < P.rank l) : i ≠ j := by
  rintro rfl
  exact lt_irrefl _ (hi _ hj)

theorem Freed.cons {h' : Held L} (hj : (l, n + 1) ∈ held j)
    (hcall : ∀ c rest, s.todo j = .call c :: rest → P.allowed l c = true)
    (hfreed : Freed P (s.step j) (Function.update held j h') l m) : Freed P s held l (m + 1) := by
  obtain ⟨schedule, held', hlen, hcalls, hnext, hfree, hothers⟩ := hfreed
  refine ⟨j :: schedule, held', Nat.succ_le_succ hlen, ⟨hcall, hcalls⟩, hnext, hfree, ?_⟩
  intro i hi
  have hne := holder_not_below hj hi
  have hother := hothers i (by simpa [hne] using hi)
  rw [Function.update_of_ne hne] at hother
  exact ⟨by simp [hne, hother.1], hother.2⟩

theorem todo_run {i : ι} {schedule : List ι} (hi : i ∉ schedule) :
    (run Threads.step s schedule).todo i = s.todo i := by
  induction schedule generalizing s with
  | nil => rfl
  | cons k schedule ih =>
    obtain ⟨hne, hi⟩ := not_or.mp (List.mem_cons.not.mp hi)
    exact (ih hi).trans (todo_step hne)

theorem callsOnly_append {Q : C → Prop} {w w' : List ι} :
    s.CallsOnly Q (w ++ w') ↔ s.CallsOnly Q w ∧ (run Threads.step s w).CallsOnly Q w' := by
  induction w generalizing s with
  | nil => simp [Threads.CallsOnly, run]
  | cons k w ih => simp [Threads.CallsOnly, ih, run, and_assoc]

theorem callsOnly_mono {Q Q' : C → Prop} (hq : ∀ c, Q c → Q' c) {w : List ι} (h : s.CallsOnly Q w) :
    s.CallsOnly Q' w := by
  induction w generalizing s with
  | nil => trivial
  | cons k w ih => exact ⟨fun c rest htodo => hq c (h.1 c rest htodo), ih h.2⟩

/-- A lock above `l` gets free first. -/
theorem Freed.append {l' : L} (hrank : P.rank l < P.rank l')
    (hstricter : ∀ c, P.allowed l' c = true → P.allowed l c = true) (hfreed : Freed P s held l' m)
    (hthen : ∀ s' held', Disciplined P s' held' → s'.holder l' = none →
      (∀ i, (∀ x ∈ held i, P.rank x.1 < P.rank l') → s'.todo i = s.todo i ∧ held' i = held i) →
      Freed P s' held' l n) : Freed P s held l (m + n) := by
  obtain ⟨w, held', hlen, hcalls, hnext, hfree, hothers⟩ := hfreed
  obtain ⟨w', held'', hlen', hcalls', hnext', hfree', hothers'⟩ := hthen _ held' hnext hfree fun i hi =>
    ⟨todo_run (hothers i hi).1, (hothers i hi).2⟩
  refine ⟨w ++ w', held'', ?_, ?_, ?_, ?_, ?_⟩
  · rw [List.length_append]
    exact Nat.add_le_add hlen hlen'
  · exact callsOnly_append.mpr ⟨callsOnly_mono hstricter hcalls, hcalls'⟩
  · rw [run_append]
    exact hnext'
  · rw [run_append]
    exact hfree'
  · intro i hi
    obtain ⟨hw, hsame⟩ := hothers i fun x hx => (hi x hx).trans hrank
    obtain ⟨hw', hsame'⟩ := hothers' i (by rw [hsame]; exact hi)
    exact ⟨by simp [hw, hw'], hsame'.trans hsame⟩

theorem freed_now (h : Disciplined P s held) (hfree : s.holder l = none) : Freed P s held l n :=
  ⟨[], held, Nat.zero_le n, trivial, h, hfree, fun _ _ => ⟨List.not_mem_nil, rfl⟩⟩

omit [DecidableEq ι] in
theorem holder_next (h : Disciplined P s held) (hj : (l, n) ∈ held j) :
    0 < n ∧ ∃ a rest h', s.todo j = a :: rest ∧ Does P (held j) a h' := by
  have hkeeps := h.keeps j
  cases htodo : s.todo j with
  | nil =>
    rw [htodo, keeps_nil] at hkeeps
    rw [hkeeps] at hj
    cases hj
  | cons a rest =>
    rw [htodo] at hkeeps
    obtain ⟨h', hop, -⟩ := keeps_cons.mp hkeeps
    obtain ⟨hpos, hdoes⟩ := op_does hop
    exact ⟨hpos _ hj, a, rest, h', rfl, hdoes⟩

/-- The holder goes on: it gives `l` back, or has a step less for it. -/
theorem freed_step (h : Disciplined P s held) (hj : (l, n + 1) ∈ held j) {a : LockOp L C} {rest : List (LockOp L C)}
    (htodo : s.todo j = a :: rest) (hfree : ∀ l, a = .acquire l → s.holder l = none)
    (hthen : ∀ held', Disciplined P (s.step j) held' → (l, n) ∈ held' j → Freed P (s.step j) held' l m) :
    Freed P s held l (m + 1) := by
  have hspent {g : Held L} (hg : (l, n + 1) ∈ g) : (l, n) ∈ g.spent := mem_spent.mpr ⟨_, hg, rfl⟩
  obtain ⟨h', -, hdoes, hnext⟩ := goes_on h htodo hfree
  refine Freed.cons hj ?_ (?_ : Freed P (s.step j) (Function.update held j h') l m)
  · intro c rest' hcall
    rw [htodo] at hcall
    obtain ⟨rfl, rfl⟩ := List.cons.inj hcall
    cases hdoes with
    | call c hallowed => exact hallowed _ hj
  · have hlater (hmem : (l, n) ∈ h') : Freed P (s.step j) (Function.update held j h') l m :=
      hthen _ hnext (by rw [Function.update_self]; exact hmem)
    cases hdoes with
    | acquire l' _ => exact hlater (List.mem_cons_of_mem _ (hspent hj))
    | release l' n' tail heq =>
      by_cases hl : l = l'
      · subst hl
        refine freed_now hnext ?_
        simp [Threads.step, htodo]
      · rw [heq] at hj
        rcases List.mem_cons.mp hj with hhead | htail
        · exact absurd (congrArg Prod.fst hhead) hl
        · exact hlater (hspent htail)
    | call c _ => exact hlater (hspent hj)

/-- The holder of `l` goes on, unless a lock above has to get free first. -/
theorem freed_of_mem
    (habove : ∀ (s : Threads ι L C) held l' k, P.rank l < P.rank l' → Disciplined P s held → s.holder l' = some k →
      Freed P s held l' m)
    (hstricter : ∀ l' c, P.rank l < P.rank l' → P.allowed l' c = true → P.allowed l c = true)
    (h : Disciplined P s held) (hj : (l, n) ∈ held j) : Freed P s held l (n * (m + 1)) := by
  induction n generalizing s held with
  | zero => exact absurd (holder_next h hj).1 (lt_irrefl 0)
  | succ n ih =>
    obtain ⟨-, a, rest, h', htodo, hdoes⟩ := holder_next h hj
    rw [Nat.succ_mul, ← Nat.add_assoc]
    by_cases hwait : ∃ l' k, a = .acquire l' ∧ s.holder l' = some k
    · obtain ⟨l', k, rfl, hk⟩ := hwait
      cases hdoes with
      | acquire l' hrank =>
        have hl := hrank _ hj
        have hfreed : Freed P s held l (m + (n * (m + 1) + 1)) := by
          refine Freed.append hl (fun c => hstricter l' c hl) (habove s held l' k hl h hk) ?_
          intro s' held' hnext hfree hsame
          obtain ⟨htodo', hheld'⟩ := hsame j hrank
          refine freed_step hnext (by rw [hheld']; exact hj) (htodo'.trans htodo) ?_ fun _ => ih
          intro l'' hl''
          rw [← LockOp.acquire.inj hl'']
          exact hfree
        exact hfreed.mono (by omega)
    · exact (freed_step h hj htodo (free_of_not_waiting hwait) fun _ => ih).mono (by omega)

theorem freed {delay : L → Nat} (hd : P.Delay delay) (h : Disciplined P s held) (hl : s.holder l = some j) :
    Freed P s held l (delay l) := by
  induction hdelay : delay l using Nat.strong_induction_on generalizing s held l j with
  | _ d ih =>
    obtain ⟨⟨l', n⟩, hj, rfl⟩ := List.mem_map.mp ((h.holder j l).mp hl)
    obtain ⟨m, hm, hle⟩ := hd.steps l'
    have hn := h.limited j _ hj
    have hpos := (holder_next h hj).1
    have hsteps : n * (m + 1) ≤ d := (Nat.mul_le_mul_right _ hn).trans (hdelay ▸ hle)
    have hmd : m < d := by
      have hone : 1 * (m + 1) ≤ n * (m + 1) := Nat.mul_le_mul_right _ hpos
      omega
    refine (freed_of_mem (m := m) ?_ (fun l'' c => hd.stricter l' l'' c) h hj).mono hsteps
    intro s' held' l'' k hrank h' hk
    have hbelow := hm l'' hrank
    exact (ih (delay l'') (by omega) h' hk rfl).mono hbelow

omit [DecidableEq ι] in
/-- Who holds a lock gives it back, and calls nothing before that may not be called under it. -/
theorem gives_back {h : Held L} {w : List (LockOp L C)} (hw : P.Keeps h w) (hl : (l, n) ∈ h) :
    ∃ before rest, w = before ++ .release l :: rest ∧ before.length < n ∧
      ∀ c, .call c ∈ before → P.allowed l c = true := by
  have hspent {g : Held L} {k : Nat} (hg : (l, k) ∈ g) : (l, k - 1) ∈ g.spent := mem_spent.mpr ⟨_, hg, rfl⟩
  induction w generalizing h n with
  | nil =>
    rw [keeps_nil.mp hw] at hl
    cases hl
  | cons a w ih =>
    obtain ⟨h', hop, hw⟩ := keeps_cons.mp hw
    obtain ⟨hpos, hdoes⟩ := op_does hop
    have hn : 0 < n := hpos _ hl
    have hlater (hmem : (l, n - 1) ∈ h') (ha : ∀ c, a = .call c → P.allowed l c = true) :
        ∃ before rest, a :: w = before ++ .release l :: rest ∧ before.length < n ∧
          ∀ c, .call c ∈ before → P.allowed l c = true := by
      obtain ⟨before, rest, rfl, hlen, hcalls⟩ := ih hw hmem
      refine ⟨a :: before, rest, rfl, by rw [List.length_cons]; omega, ?_⟩
      intro c hc
      rcases List.mem_cons.mp hc with hc | hc
      · exact ha c hc.symm
      · exact hcalls c hc
    cases hdoes with
    | acquire l' _ => exact hlater (List.mem_cons_of_mem _ (hspent hl)) fun c hc => by cases hc
    | release l' n' tail heq =>
      by_cases hsame : l = l'
      · subst hsame
        exact ⟨[], w, rfl, hn, fun c hc => by cases hc⟩
      · rw [heq] at hl
        rcases List.mem_cons.mp hl with hhead | htail
        · exact absurd (congrArg Prod.fst hhead) hsame
        · exact hlater (hspent htail) fun c hc => by cases hc
    | call c' hallowed =>
      refine hlater (hspent hl) ?_
      rintro c ⟨⟩
      exact hallowed _ hl

theorem holder_gives_back {prog : ι → List (LockOp L C)} (hprog : ∀ i, P.Keeps [] (prog i)) (schedule : List ι)
    (hl : (threadsAfter prog schedule).holder l = some j) :
    ∃ before rest, (threadsAfter prog schedule).todo j = before ++ .release l :: rest ∧ before.length < P.limit l ∧
      ∀ c, .call c ∈ before → P.allowed l c = true := by
  obtain ⟨held, h⟩ := disciplined_run hprog schedule
  obtain ⟨⟨l', n⟩, hj, rfl⟩ := List.mem_map.mp ((h.holder j l).mp hl)
  obtain ⟨before, rest, htodo, hlen, hcalls⟩ := gives_back (h.keeps j) hj
  exact ⟨before, rest, htodo, hlen.trans_le (h.limited j _ hj), hcalls⟩

/-- Whatever thread waits for a lock, in whatever state: a few steps of others, none of which calls what may not be
called under the lock, and it can have it. -/
theorem no_long_wait {delay : L → Nat} (hd : P.Delay delay) {prog : ι → List (LockOp L C)}
    (hprog : ∀ i, P.Keeps [] (prog i)) (schedule : List ι) {i : ι} {rest : List (LockOp L C)}
    (hwait : (threadsAfter prog schedule).todo i = .acquire l :: rest) :
    ∃ others, i ∉ others ∧ others.length ≤ delay l ∧
      (threadsAfter prog schedule).CallsOnly (fun c => P.allowed l c = true) others ∧
      (threadsAfter prog (schedule ++ others)).holder l = none := by
  obtain ⟨held, h⟩ := disciplined_run hprog schedule
  cases hl : (threadsAfter prog schedule).holder l with
  | none => exact ⟨[], List.not_mem_nil, Nat.zero_le _, trivial, by rw [List.append_nil]; exact hl⟩
  | some j =>
    obtain ⟨others, held', hlen, hcalls, -, hfree, hsame⟩ := freed hd h hl
    refine ⟨others, ?_, hlen, hcalls, ?_⟩
    · have hkeeps := h.keeps i
      rw [hwait] at hkeeps
      obtain ⟨h', hop, -⟩ := keeps_cons.mp hkeeps
      cases (op_does hop).2 with
      | acquire l hrank => exact (hsame i hrank).1
    · rw [threadsAfter, run_append]
      exact hfree

end System

end FloorHeating.Lib
