import Nodepool.Launcher.AssignHandlers

/-!
The order in which `_assignHandlers` considers requests, for the identifiers that
`storeNodeRequest` gives them.

The identifier of a request is the name of a sequential node: the priority of the client, a
dash, and the counter of ZooKeeper, which is signed and is printed with at least ten
characters. The key of `sorted` takes the identifier apart at its dashes, and raises unless
there is exactly one; it compares the priorities as text.
-/

namespace Nodepool.RequestOrder

open AssignHandlers Sorted

/-- `'%010d' % counter` -/
def counterText : ℤ → String
  | .ofNat n => sequenceName n
  | .negSucc n =>
      String.ofList ('-' :: (List.replicate (9 - (Nat.toDigits 10 (n + 1)).length) '0' ++
        Nat.toDigits 10 (n + 1)))

/-- What `storeNodeRequest` and ZooKeeper make the identifier of a request from. -/
structure Origin where
  priority : String
  nonempty : priority ≠ ""
  numeric : ∀ c ∈ priority.toList, c.isDigit = true
  counter : ℤ
  signed : -2 ^ 31 ≤ counter ∧ counter < 2 ^ 31

namespace Origin

/-- The last component of the path that `create` returns. -/
def id (o : Origin) : String := Text.join '-' [o.priority, counterText o.counter]

/-- The number that the priority stands for. -/
def precedence (o : Origin) : ℕ := Nat.ofDigitChars 10 o.priority.toList 0

end Origin

/-- A request that `storeNodeRequest` has created. -/
structure Created where
  request : NodeRequest
  origin : Origin
  id_eq : request.id = origin.id

variable (w : PoolWorker)

/-! ### Identifiers -/

theorem dash_notMem_digits {cs : List Char} (digits : ∀ c ∈ cs, c.isDigit = true) : '-' ∉ cs :=
  fun mem => nomatch digits _ mem

/-- An identifier with a counter that is not negative has two parts. -/
theorem split_id_of_nonneg {o : Origin} {n : ℕ} (h : o.counter = n) :
    Text.split '-' o.id = [o.priority, sequenceName n] := by
  rw [Origin.id, h]
  refine Text.split_join (List.cons_ne_nil _ _) fun p mem => ?_
  rcases List.mem_pair.mp mem with rfl | rfl
  · exact dash_notMem_digits o.numeric
  · exact dash_notMem_digits fun c => isDigit_of_mem_sequenceName

/-- A counter that has wrapped brings a dash of its own. -/
theorem split_id_of_neg {o : Origin} {n : ℕ} (h : o.counter = Int.negSucc n) :
    ∃ digits, Text.split '-' o.id = [o.priority, "", digits] := by
  set digits := List.replicate (9 - (Nat.toDigits 10 (n + 1)).length) '0' ++
    Nat.toDigits 10 (n + 1) with hd
  have free : ∀ c ∈ digits, c.isDigit = true := by
    intro c mem
    rcases List.mem_append.mp mem with mem | mem
    · rw [List.eq_of_mem_replicate mem]
      rfl
    · exact Nat.isDigit_of_mem_toDigits (by decide) (by decide) mem
  have id_eq : o.id = Text.join '-' [o.priority, "", String.ofList digits] := by
    rw [Origin.id, h, counterText, ← hd, Text.join, Text.join]
    simp [List.intercalate]
  refine ⟨String.ofList digits, ?_⟩
  rw [id_eq]
  refine Text.split_join (List.cons_ne_nil _ _) fun p mem => ?_
  simp only [List.mem_cons, List.not_mem_nil, or_false] at mem
  rcases mem with rfl | rfl | rfl
  · exact dash_notMem_digits o.numeric
  · exact List.not_mem_nil
  · rw [String.toList_ofList]
    exact dash_notMem_digits free

theorem length_sequenceName {n : ℕ} (h : n < 10 ^ 10) : (sequenceName n).toList.length = 10 := by
  have : (Nat.toDigits 10 n).length ≤ 10 :=
    (Nat.length_toDigits_le_iff (by decide) (by decide)).mpr h
  rw [sequenceName, String.toList_ofList, List.length_append, List.length_replicate]
  omega

/-- Counters are in the order of their texts as long as they have ten digits. -/
theorem sequenceName_lt_iff {m n : ℕ} (hm : m < 10 ^ 10) (hn : n < 10 ^ 10) :
    sequenceName m < sequenceName n ↔ m < n := by
  have increasing {m n : ℕ} (hm : m < 10 ^ 10) (hn : n < 10 ^ 10)
      (less : sequenceName m < sequenceName n) : m < n := by
    have := Text.ofDigitChars_lt_ofDigitChars
      ((length_sequenceName hm).trans (length_sequenceName hn).symm)
      (fun _ => isDigit_of_mem_sequenceName) (fun _ => isDigit_of_mem_sequenceName)
      (String.lt_iff_toList_lt.mp less)
    rwa [ofDigitChars_sequenceName, ofDigitChars_sequenceName] at this
  refine ⟨increasing hm hn, fun less => ?_⟩
  rcases lt_trichotomy (sequenceName m) (sequenceName n) with h | h | h
  · exact h
  · exact absurd (sequenceName_injective h) (Nat.ne_of_lt less)
  · exact absurd (increasing hn hm h) (Nat.lt_asymm less)

/-! ### The order of the requests -/

/-- What the order is to be: by the number of labels that the pool lacks, then the priority as
a number, then the relative priority, then the counter. -/
def order (r : Created) : ℕ ×ₗ ℕ ×ₗ ℤ ×ₗ ℤ :=
  toLex ((w.missingLabels r.request).eraseDups.length,
    toLex (r.origin.precedence, toLex (r.request.relativePriority, r.origin.counter)))

/-- The key of a request whose counter has not wrapped. -/
def textKey (r : Created) : ℕ ×ₗ String ×ₗ ℤ ×ₗ String :=
  toLex ((w.missingLabels r.request).eraseDups.length,
    toLex (r.origin.priority,
      toLex (r.request.relativePriority, sequenceName r.origin.counter.toNat)))

/-- The requests are sorted, and if the counter has not wrapped, they are in order. -/
def InOrder (requests : List Created) : Prop :=
  ∃ considered, sorted (fun r : Created => sortKey w r.request) requests = .ok considered ∧
    ((∀ r ∈ requests, 0 ≤ r.origin.counter) →
      considered.Pairwise fun r r' => order w r ≤ order w r')

/-- Of two requests that lack as many labels, the one whose priority comes first as text does
not come last by the numbers. -/
def PrioritiesAgree (requests : List Created) : Prop :=
  ∀ r ∈ requests, ∀ r' ∈ requests,
    (w.missingLabels r.request).eraseDups.length = (w.missingLabels r'.request).eraseDups.length →
    r.origin.priority < r'.origin.priority → order w r ≤ order w r'

variable {w}

theorem sortKey_of_nonneg {r : Created} (h : 0 ≤ r.origin.counter) :
    sortKey w r.request = .ok (textKey w r) := by
  have split := split_id_of_nonneg (Int.toNat_of_nonneg h).symm
  rw [sortKey, priority, r.id_eq, split]
  rfl

theorem sortKey_of_neg {r : Created} (h : r.origin.counter < 0) :
    sortKey w r.request = .error .other := by
  obtain ⟨n, hn⟩ := Int.eq_negSucc_of_lt_zero h
  obtain ⟨digits, split⟩ := split_id_of_neg hn
  rw [sortKey, priority, r.id_eq, split]
  rfl

theorem toNat_counter_lt (r : Created) : r.origin.counter.toNat < 10 ^ 10 := by
  have := r.origin.signed
  omega

/-- Where the texts of the priorities are the same, the key is in the order of the numbers. -/
theorem order_le_of_textKey_lt {r r' : Created} (h : 0 ≤ r.origin.counter)
    (h' : 0 ≤ r'.origin.counter) (less : textKey w r < textKey w r')
    (agree : (w.missingLabels r.request).eraseDups.length =
      (w.missingLabels r'.request).eraseDups.length →
      r.origin.priority < r'.origin.priority → order w r ≤ order w r') :
    order w r ≤ order w r' := by
  unfold textKey at less
  rcases Prod.Lex.toLex_lt_toLex.mp less with lacks | ⟨same, less⟩
  · exact Prod.Lex.toLex_le_toLex.mpr (.inl lacks)
  dsimp only at same less
  rcases Prod.Lex.toLex_lt_toLex.mp less with text | ⟨sameText, less⟩
  · exact agree same text
  dsimp only at sameText less
  refine Prod.Lex.toLex_le_toLex.mpr (.inr ⟨same, Prod.Lex.toLex_le_toLex.mpr (.inr ⟨?_, ?_⟩)⟩)
  · change Nat.ofDigitChars 10 r.origin.priority.toList 0 = _
    rw [sameText]
    rfl
  · rcases Prod.Lex.toLex_lt_toLex.mp less with relative | ⟨sameRelative, sequence⟩
    · exact Prod.Lex.toLex_le_toLex.mpr (.inl relative)
    · have := (sequenceName_lt_iff (toNat_counter_lt r) (toNat_counter_lt r')).mp sequence
      refine Prod.Lex.toLex_le_toLex.mpr (.inr ⟨sameRelative, ?_⟩)
      dsimp only
      omega

theorem order_eq_of_textKey_eq {r r' : Created} (h : 0 ≤ r.origin.counter)
    (h' : 0 ≤ r'.origin.counter) (equal : textKey w r = textKey w r') :
    order w r = order w r' := by
  unfold textKey at equal
  obtain ⟨lacks, equal⟩ := Prod.mk.inj (toLex_inj.mp equal)
  obtain ⟨text, equal⟩ := Prod.mk.inj (toLex_inj.mp equal)
  obtain ⟨relative, sequence⟩ := Prod.mk.inj (toLex_inj.mp equal)
  have counter : r.origin.counter = r'.origin.counter := by
    have := sequenceName_injective sequence
    omega
  rw [order, order, lacks, relative, counter, Origin.precedence, Origin.precedence, text]

variable {requests : List Created}

theorem sorted_of_nonneg (nonneg : ∀ r ∈ requests, 0 ≤ r.origin.counter) :
    sorted (fun r : Created => sortKey w r.request) requests =
      .ok (requests.insertionSort fun a b => textKey w a ≤ textKey w b) := by
  refine sorted_ok (fun r mem => ⟨_, sortKey_of_nonneg (nonneg r mem)⟩) ?_
  intro a ha b hb k k' hk hk'
  cases (sortKey_of_nonneg (nonneg a ha)).symm.trans hk
  cases (sortKey_of_nonneg (nonneg b hb)).symm.trans hk'
  exact Iff.rfl

theorem sorted_inOrder_iff (nonneg : ∀ r ∈ requests, 0 ≤ r.origin.counter) :
    (requests.insertionSort fun a b => textKey w a ≤ textKey w b).Pairwise
        (fun a b => order w a ≤ order w b) ↔
      ∀ a ∈ requests, ∀ b ∈ requests, textKey w a < textKey w b → order w a ≤ order w b :=
  pairwise_insertionSort_iff fun a ha b hb =>
    order_eq_of_textKey_eq (nonneg a ha) (nonneg b hb)

/-- A counter that has wrapped stops the pass. -/
theorem InOrder.nonneg (h : InOrder w requests) : ∀ r ∈ requests, 0 ≤ r.origin.counter := by
  obtain ⟨considered, ok, -⟩ := h
  intro r mem
  refine not_lt.mp fun neg => ?_
  obtain ⟨e, raises⟩ := sorted_raises (fun r : Created => sortKey w r.request) mem
    (sortKey_of_neg neg)
  rw [raises] at ok
  cases ok

theorem InOrder.agree (h : InOrder w requests) : PrioritiesAgree w requests := by
  intro r mem r' mem' lacks text
  have nonneg := h.nonneg
  obtain ⟨considered, ok, inOrder⟩ := h
  rw [sorted_of_nonneg nonneg] at ok
  cases ok
  refine (sorted_inOrder_iff nonneg).mp (inOrder nonneg) r mem r' mem' ?_
  exact Prod.Lex.toLex_lt_toLex.mpr (.inr ⟨lacks, Prod.Lex.toLex_lt_toLex.mpr (.inl text)⟩)

theorem inOrder_of_agree (nonneg : ∀ r ∈ requests, 0 ≤ r.origin.counter)
    (agree : PrioritiesAgree w requests) : InOrder w requests := by
  refine ⟨_, sorted_of_nonneg nonneg, fun _ => (sorted_inOrder_iff nonneg).mpr ?_⟩
  intro a ha b hb less
  exact order_le_of_textKey_lt (nonneg a ha) (nonneg b hb) less (agree a ha b hb)

/-- The requests are considered in order, whatever they are, if and only if no counter has
wrapped and the texts of the priorities agree with their numbers. -/
theorem inOrder_iff (w : PoolWorker) (requests : List Created) :
    InOrder w requests ↔
      (∀ r ∈ requests, 0 ≤ r.origin.counter) ∧ PrioritiesAgree w requests :=
  ⟨fun h => ⟨h.nonneg, h.agree⟩, fun h => inOrder_of_agree h.1 h.2⟩

/-! ### A short priority, and a counter that has wrapped -/

def exampleRequest (origin : Origin) : Created where
  request := {
    id := origin.id, state := .requested, declinedBy := [], nodeTypes := [], nodes := []
    reuse := true, requestor := none, provider := none, relativePriority := 0
    tenantName := none }
  origin := origin
  id_eq := rfl

def examplePool : PoolWorker where
  launcherId := "launcher"
  providerName := "cloud"
  poolName := "main"
  labels := []
  poolPriority := none
  providerPriority := none

def exampleShort : Created :=
  exampleRequest ⟨"90", by decide, List.all_eq_true.mp (by decide), 1, by omega⟩

def exampleLong : Created :=
  exampleRequest ⟨"100", by decide, List.all_eq_true.mp (by decide), 2, by omega⟩

def exampleWrapped : Created :=
  exampleRequest ⟨"100", by decide, List.all_eq_true.mp (by decide), -1, by omega⟩

/-- The request with priority 90 comes after the one with priority 100, and one request with a
negative counter stops the pass. -/
theorem not_inOrder : ¬ InOrder examplePool [exampleShort, exampleLong] ∧
    ¬ InOrder examplePool [exampleWrapped] := by
  have lacksLong : (examplePool.missingLabels exampleLong.request).eraseDups.length = 0 := rfl
  have lacksShort : (examplePool.missingLabels exampleShort.request).eraseDups.length = 0 := rfl
  have long : exampleLong.origin.precedence = 100 := by decide
  have short : exampleShort.origin.precedence = 90 := by decide
  refine ⟨fun h => ?_, fun h => ?_⟩
  · have := h.agree exampleLong (List.mem_cons_of_mem _ List.mem_cons_self) exampleShort
      List.mem_cons_self (lacksLong.trans lacksShort.symm) (by decide)
    rw [order, order, lacksLong, lacksShort, long, short] at this
    rcases Prod.Lex.toLex_le_toLex.mp this with less | ⟨-, rest⟩
    · exact absurd less (lt_irrefl 0)
    · rcases Prod.Lex.toLex_le_toLex.mp rest with less | ⟨equal, -⟩
      · exact absurd less (by decide)
      · exact absurd equal (by decide)
  · exact absurd (h.nonneg exampleWrapped List.mem_cons_self) (by decide)

end Nodepool.RequestOrder
