import DerivativeEngine.Proofs.Source.Steps

/-! What is a phrase of the grammar is accepted. From the state before a phrase the parser comes to
the state after it, with the tree of the phrase, unless the phrase nests too deeply or is followed
by what would go on with it. The loop over operators has then read the phrase as its left part and
goes on behind it; that it does not refuse the operator of a phrase, and that it leaves what follows
a right operand, are facts of the table of operators. -/

namespace DerivativeEngine.Parser

open Grammar

variable {α : Type}

namespace State

variable {s : State α} {tok : Token} {rest : List Token}

theorem head_of_rest (env : Setting α) (h : s.rest = tok :: rest) : s.head env = tok := by
  simp [head, h]

theorem drop_rest (h : s.rest = tok :: rest) : s.drop.rest = rest := by simp [drop, h]

end State

namespace Took

variable {env : Setting α} {s s' : State α} {tok : Token} {ts rest : List Token} {d : Nat}

theorem one (env : Setting α) (h : s.rest = tok :: rest) : Took env s [tok] 0 s.drop :=
  ⟨by simp [State.drop, h], rfl, by simp [reach, State.drop], .inl rfl, rfl⟩

theorem remains (h : Took env s ts d s') (g : s.rest = ts ++ rest) : s'.rest = rest :=
  List.append_cancel_left (h.rest.symm.trans g)

end Took

/-- The parser stands before the tokens, may go down so deep, and what comes after the tokens may
follow a phrase of the level. -/
structure Before (env : Setting α) (l : Level) (d : Nat) (ts after : List Token) (s : State α) :
    Prop where
  rest : s.rest = ts ++ after
  fits : d = 0 ∨ ((s.depth + d : Nat) : Int) ≤ env.config.maxDepth
  follow : Follows l (after.headD env.final)

namespace Before

variable {env : Setting α} {l m : Level} {d : Nat} {ts after : List Token} {s : State α}

theorem mono (h : Before env l d ts after s) (le : l.rank ≤ m.rank) : Before env m d ts after s :=
  ⟨h.rest, h.fits, h.follow.mono le⟩

theorem unary (h : Before env l d ts after s) : Before env .unary d ts after s :=
  ⟨h.rest, h.fits, h.follow.uncalled, fun _ rule => left_rank_le rule⟩

theorem checked (h : Before env l d ts after s) : Before env l d ts after s.checked :=
  ⟨h.rest, h.fits, h.follow⟩

end Before

variable [Scalar α]

def ReadsPrimary (env : Setting α) (d : Nat) (ts : List Token) (e : Expr α) : Prop :=
  ∀ s n rest, Before env .unary d ts rest s → 8 * s.rest.length + 3 ≤ n →
    ∃ s', Took env s ts d s' ∧ outcome (primary env n) s = (.ok e, s')

def ReadsUnary (env : Setting α) (d : Nat) (ts : List Token) (e : Expr α) : Prop :=
  ∀ s n rest, Before env .unary d ts rest s → 8 * s.rest.length + 4 ≤ n →
    ∃ s', Took env s ts d s' ∧ outcome (unary env n) s = (.ok e, s')

def ReadsChain (env : Setting α) (l : Level) (d : Nat) (ts : List Token) (e : Expr α) : Prop :=
  ∀ p s n rest, p ≤ 11 → (Level.ofPower p).rank ≤ l.rank → Before env l d ts rest s →
    8 * s.rest.length + 5 ≤ n →
    ∃ n' s' compared combined, Took env s ts d s' ∧ 8 * rest.length + 1 ≤ n' ∧
      Chained l compared combined ∧
      outcome (binary env n p) s = outcome (operators env n' p e compared combined) s'

def ReadsArguments (env : Setting α) (d : Nat) (ts : List Token) (es : List (Expr α)) : Prop :=
  ∀ s n count rp rest, s.rest = ts ++ rp :: rest → rp.kind = .rightParen →
    (d = 0 ∨ ((s.depth + d : Nat) : Int) ≤ env.config.maxDepth) →
    ((count + es.length : Nat) : Int) ≤ env.config.maxArgs → 8 * s.rest.length + 6 ≤ n →
    ∃ s', Took env s (ts ++ [rp]) d s' ∧ outcome (arguments env n count) s = (.ok es, s')

structure Reads (env : Setting α) (l : Level) (d : Nat) (ts : List Token) (e : Expr α) : Prop where
  chain : ReadsChain env l d ts e
  unary : Level.unary.rank ≤ l.rank → ReadsUnary env d ts e

section Levels

variable {env : Setting α} {l m : Level} {d d₁ d₂ : Nat} {ts us : List Token} {e e₁ e₂ : Expr α}

theorem ReadsPrimary.unary (h : ReadsPrimary env d ts e)
    (head : ∃ t us, ts = t :: us ∧ t.kind ≠ .minus ∧ t.kind ≠ .bang) : ReadsUnary env d ts e := by
  intro s n rest before fuel
  obtain ⟨n, rfl⟩ : ∃ n', n = n' + 1 := ⟨n - 1, by omega⟩
  obtain ⟨t, us, rfl, notMinus, notBang⟩ := head
  obtain ⟨s', took, read⟩ := h s n rest before (by omega)
  refine ⟨s', took, ?_⟩
  rw [Parser.unary, outcome_bind_of_ok (outcome_peek env s), State.head_of_rest env before.rest]
  split
  · next minus => exact absurd minus notMinus
  · next bang => exact absurd bang notBang
  · exact read

theorem ReadsUnary.chain (live : env.config.InTime) (h : ReadsUnary env d ts e)
    (l : Level) : ReadsChain env l d ts e := by
  intro p s n rest _ _ before fuel
  obtain ⟨n, rfl⟩ : ∃ n', n = n' + 1 := ⟨n - 1, by omega⟩
  obtain ⟨s', took, read⟩ := h s.checked n rest before.unary.checked (Nat.le_of_succ_le_succ fuel)
  refine ⟨n, s', false, false, took.of_checked, ?_, ⟨by simp, by simp⟩, ?_⟩
  · have length := congrArg List.length before.rest
    rw [List.length_append] at length
    omega
  · rw [Parser.binary, outcome_bind_of_ok (outcome_checkTime_of_inTime live s),
      outcome_bind_of_ok read]

theorem ReadsChain.stop (h : ReadsChain env l d ts e) {p n : Nat} {s : State α}
    {rest : List Token} (small : p ≤ 11) (rank : (Level.ofPower p).rank ≤ l.rank)
    (before : Before env l d ts rest s) (fuel : 8 * s.rest.length + 5 ≤ n)
    (stop : ∀ r, rule? (rest.headD env.final).kind = some r → r.level.leftPower < p) :
    ∃ s', Took env s ts d s' ∧ outcome (Parser.binary env n p) s = (.ok e, s') := by
  obtain ⟨n', s', compared, combined, took, fuel', -, read⟩ := h p s n rest small rank before fuel
  obtain ⟨n', rfl⟩ : ∃ k, n' = k + 1 := ⟨n' - 1, by omega⟩
  refine ⟨s', took, ?_⟩
  have head : s'.head env = rest.headD env.final := by
    rw [State.head, took.remains before.rest]
  rw [read, outcome_operators, head]
  split
  · rfl
  · next r rule =>
    have loose := stop r rule
    rw [if_neg (by omega)]

theorem ReadsChain.operand {r : Rule} {tok : Token} {n : Nat} {s : State α} {rest : List Token}
    (right : ReadsChain env r.right d us e) (rule : rule? tok.kind = some r)
    (before : Before env r.level (d + r.descent) us rest s) (fuel : 8 * s.rest.length + 5 ≤ n) :
    ∃ s', Took env s us (d + r.descent) s' ∧
      outcome (Parser.operand env n r) s = (.ok e, s') := by
  have rank : (Level.ofPower r.level.rightPower).rank ≤ r.right.rank :=
    Nat.le_of_eq (congrArg Level.rank (ofPower_rightPower rule))
  have stop : ∀ r', rule? (rest.headD env.final).kind = some r' →
      r'.level.leftPower < r.level.rightPower :=
    fun r' rule' => leftPower_lt_rightPower rule rule' (before.follow.taken r' rule')
  have follow := before.follow.mono (level_le_right rule)
  have fits := before.fits
  by_cases power : r.op = .pow
  · have descent : r.descent = 1 := if_pos power
    rw [descent] at fits ⊢
    have deep : ((s.depth + 1 : Nat) : Int) ≤ env.config.maxDepth := by omega
    have below : d = 0 ∨ ((s.depth + 1 + d : Nat) : Int) ≤ env.config.maxDepth := by omega
    obtain ⟨s', took, read⟩ :=
      right.stop (s := s.down) (rightPower_le rule) rank ⟨before.rest, below, follow⟩ fuel stop
    rw [Parser.operand, if_pos power]
    exact ⟨s'.up, took.nest deep, outcome_nested deep read⟩
  · have descent : r.descent = 0 := if_neg power
    rw [descent] at fits ⊢
    rw [Parser.operand, if_neg power]
    exact right.stop (rightPower_le rule) rank ⟨before.rest, fits, follow⟩ fuel stop

theorem ReadsChain.binary (live : env.config.InTime) {r : Rule} {tok : Token}
    (rule : rule? tok.kind = some r) (left : ReadsChain env r.left d₁ ts e₁)
    (right : ReadsChain env r.right d₂ us e₂) :
    ReadsChain env r.level (max d₁ (d₂ + r.descent)) (ts ++ tok :: us) (.bin r.op e₁ e₂) := by
  intro p s n rest small rank before fuel
  have split : s.rest = ts ++ tok :: (us ++ rest) := by
    rw [before.rest, List.append_assoc, List.cons_append]
  have fits := before.fits
  obtain ⟨n₁, s₁, compared, combined, took₁, fuel₁, chained, read₁⟩ :=
    left p s n _ small (Nat.le_trans rank (level_le_left rule))
      ⟨split, by omega, .of_rule rule⟩ fuel
  obtain ⟨n₁, rfl⟩ : ∃ k, n₁ = k + 1 := ⟨n₁ - 1, by omega⟩
  have rest₁ := took₁.remains split
  rw [List.length_cons] at fuel₁
  have rest₂ : s₁.checked.drop.rest = us ++ rest := State.drop_rest rest₁
  have depth₂ : s₁.checked.drop.depth = s.depth := took₁.depth
  obtain ⟨s₃, took₃, read₃⟩ := right.operand (n := n₁) (s := s₁.checked.drop) rule
    ⟨rest₂, by rw [depth₂]; omega, before.follow⟩ (by rw [rest₂]; omega)
  have taken : Took env s₁ [tok] 0 s₁.checked.drop :=
    (Took.one env (s := s₁.checked) rest₁).of_checked
  have took := (took₁.trans taken).trans took₃
  rw [Nat.max_zero, List.append_assoc] at took
  have binds := (Level.rank_ofPower_le_iff (level_rank_le rule) small).1 rank
  refine ⟨n₁, s₃, _, _, took, ?_, chained.step rule, ?_⟩
  · rw [List.length_append] at fuel₁
    omega
  · rw [read₁, outcome_operators, State.head_of_rest env rest₁, rule]
    dsimp only
    rw [if_pos ⟨binds, chained.allows rule⟩,
      outcome_bind_of_ok (outcome_checkTime_of_inTime live s₁),
      outcome_bind_of_ok (outcome_advance env s₁.checked), outcome_bind_of_ok read₃]

theorem Reads.loosen (h : Reads env m d ts e) (loose : l.rank ≤ m.rank) : Reads env l d ts e where
  chain p s n rest small rank before fuel := by
    obtain ⟨n', s', compared, combined, took, fuel', chained, read⟩ :=
      h.chain p s n rest small (Nat.le_trans rank loose) (before.mono loose) fuel
    refine ⟨n', s', compared, combined, took, fuel', ⟨?_, ?_⟩, read⟩
    · intro hc
      exact Nat.le_trans loose (chained.comparison hc)
    · intro hl
      exact Nat.le_trans loose (chained.logical hl)
  unary tight := h.unary (Nat.le_trans tight loose)

theorem Reads.of_unary (live : env.config.InTime) (l : Level)
    (h : ReadsUnary env d ts e) : Reads env l d ts e :=
  ⟨h.chain live l, fun _ => h⟩

theorem outcome_numberOf {tok : Token} {x : α} (value : tok.numberValue? = some x) (s : State α) :
    outcome (numberOf tok) s = (.ok x, s) := by
  rw [numberOf, value]
  rfl

theorem ReadsUnary.negative {sign tok : Token} {x : α} (minus : sign.kind = .minus)
    (kind : tok.kind = .number) (value : tok.numberValue? = some x) :
    ReadsUnary env 0 [sign, tok] (.num (-x)) := by
  intro s n rest before fuel
  obtain ⟨n, rfl⟩ : ∃ k, n = k + 1 := ⟨n - 1, by omega⟩
  have head := State.head_of_rest env before.rest
  have rest₁ := State.drop_rest before.rest
  have head₁ := State.head_of_rest env rest₁
  refine ⟨s.drop.drop, (Took.one env before.rest).trans (.one env rest₁), ?_⟩
  rw [Parser.unary, outcome_bind_of_ok (outcome_peek env s), head, minus]
  dsimp only
  rw [outcome_bind_of_ok (outcome_advance env s), outcome_bind_of_ok (outcome_peek env s.drop),
    head₁, kind, if_pos (by decide), outcome_bind_of_ok (outcome_advance env s.drop), head₁,
    outcome_bind_of_ok (outcome_numberOf value _), outcome_pure]

theorem ReadsUnary.operand (h : ReadsUnary env d ts e) {sign : Token} {s : State α} {n : Nat}
    {rest : List Token} (before : Before env .unary (d + 1) (sign :: ts) rest s)
    (fuel : 8 * s.rest.length + 4 ≤ n + 1) :
    ∃ s', Took env s (sign :: ts) (d + 1) s' ∧
      outcome (nested env (Parser.unary env n)) s.drop = (.ok e, s') := by
  have rest₁ : s.drop.rest = ts ++ rest := State.drop_rest before.rest
  have length := congrArg List.length before.rest
  rw [List.cons_append, List.length_cons] at length
  have fits := before.fits
  have deep : ((s.drop.depth + 1 : Nat) : Int) ≤ env.config.maxDepth := by
    simp only [State.drop]
    omega
  have below : d = 0 ∨ ((s.depth + 1 + d : Nat) : Int) ≤ env.config.maxDepth := by omega
  obtain ⟨s', took, read⟩ := h s.drop.down n rest ⟨rest₁, below, before.follow⟩ (by
    simp only [State.down, rest₁]
    omega)
  have whole := (Took.one env before.rest).trans (took.nest deep)
  rw [Nat.zero_max] at whole
  exact ⟨s'.up, whole, outcome_nested deep read⟩

theorem ReadsUnary.negate {sign : Token} (minus : sign.kind = .minus)
    (unfolded : ∀ t ∈ ts.head?, t.kind ≠ .number) (some : ts ≠ []) (h : ReadsUnary env d ts e) :
    ReadsUnary env (d + 1) (sign :: ts) (.un .neg e) := by
  intro s n rest before fuel
  obtain ⟨n, rfl⟩ : ∃ k, n = k + 1 := ⟨n - 1, by omega⟩
  obtain ⟨s', took, read⟩ := h.operand before (by omega)
  obtain ⟨t, us, rfl⟩ := List.exists_cons_of_ne_nil some
  have head₁ := State.head_of_rest env (State.drop_rest before.rest)
  have plain : (t.kind == .number) = false := beq_eq_false_iff_ne.2 (unfolded t rfl)
  refine ⟨s', took, ?_⟩
  rw [Parser.unary, outcome_bind_of_ok (outcome_peek env s),
    State.head_of_rest env before.rest, minus]
  dsimp only
  rw [outcome_bind_of_ok (outcome_advance env s), outcome_bind_of_ok (outcome_peek env s.drop),
    head₁, plain, if_neg (by decide), outcome_bind_of_ok read, outcome_pure]

theorem ReadsUnary.not {sign : Token} (bang : sign.kind = .bang) (h : ReadsUnary env d ts e) :
    ReadsUnary env (d + 1) (sign :: ts) (.un .not e) := by
  intro s n rest before fuel
  obtain ⟨n, rfl⟩ : ∃ k, n = k + 1 := ⟨n - 1, by omega⟩
  obtain ⟨s', took, read⟩ := h.operand before (by omega)
  refine ⟨s', took, ?_⟩
  rw [Parser.unary, outcome_bind_of_ok (outcome_peek env s),
    State.head_of_rest env before.rest, bang]
  dsimp only
  rw [outcome_bind_of_ok (outcome_advance env s), outcome_bind_of_ok read, outcome_pure]

theorem ReadsPrimary.number {tok : Token} {x : α} (kind : tok.kind = .number)
    (value : tok.numberValue? = some x) : ReadsPrimary env 0 [tok] (.num x) := by
  intro s n rest before fuel
  obtain ⟨n, rfl⟩ : ∃ k, n = k + 1 := ⟨n - 1, by omega⟩
  have head := State.head_of_rest env before.rest
  refine ⟨s.drop, .one env before.rest, ?_⟩
  rw [Parser.primary, outcome_bind_of_ok (outcome_peek env s), head, kind]
  dsimp only
  rw [outcome_bind_of_ok (outcome_advance env s), head,
    outcome_bind_of_ok (outcome_numberOf value _), outcome_pure]

theorem ReadsChain.closed (h : ReadsChain env .or d ts e) {s : State α} {n : Nat}
    {rest : List Token} (split : s.rest = ts ++ rest)
    (closing : (rest.headD env.final).kind ∈ closings)
    (fits : d = 0 ∨ ((s.depth + d : Nat) : Int) ≤ env.config.maxDepth)
    (fuel : 8 * s.rest.length + 5 ≤ n) :
    ∃ s', Took env s ts d s' ∧ outcome (Parser.binary env n 0) s = (.ok e, s') := by
  refine h.stop (Nat.zero_le _) (Nat.le_refl _) ⟨split, fits, .of_closing _ closing⟩ fuel ?_
  intro r rule
  rw [rule?_of_closing closing] at rule
  simp at rule

theorem ReadsPrimary.brackets {lp rp : Token} (opening : lp.kind = .leftParen)
    (closing : rp.kind = .rightParen) (h : ReadsChain env .or d ts e) :
    ReadsPrimary env (d + 1) (lp :: (ts ++ [rp])) e := by
  intro s n rest before fuel
  obtain ⟨n, rfl⟩ : ∃ k, n = k + 1 := ⟨n - 1, by omega⟩
  have split : s.rest = lp :: (ts ++ rp :: rest) := by
    rw [before.rest, List.cons_append, List.append_assoc, List.singleton_append]
  have rest₁ := State.drop_rest split
  have fits := before.fits
  have deep : ((s.drop.depth + 1 : Nat) : Int) ≤ env.config.maxDepth := by
    simp only [State.drop]
    omega
  have below : d = 0 ∨ ((s.drop.down.depth + d : Nat) : Int) ≤ env.config.maxDepth := by
    simp only [State.drop, State.down]
    omega
  obtain ⟨s₂, took, read⟩ :=
    h.closed (n := n) (s := s.drop.down) rest₁ (by simp [closing, closings]) below
    (by simp only [State.down, rest₁]; simp only [split, List.length_cons] at fuel; omega)
  have rest₂ : s₂.up.rest = rp :: rest := took.remains rest₁
  have whole := ((Took.one env split).trans (took.nest deep)).trans (.one env rest₂)
  rw [Nat.zero_max, Nat.max_zero] at whole
  refine ⟨s₂.up.drop, whole, ?_⟩
  have closes : (s₂.up.head env).kind = .rightParen := by
    rw [State.head_of_rest env rest₂, closing]
  rw [Parser.primary, outcome_bind_of_ok (outcome_peek env s), State.head_of_rest env split,
    opening]
  dsimp only
  rw [outcome_bind_of_ok (outcome_advance env s), outcome_bind_of_ok (outcome_nested deep read),
    outcome_bind_of_ok (outcome_accept_of_eq closes), if_pos rfl, outcome_pure]

theorem ReadsArguments.last (h : ReadsChain env .or d ts e) : ReadsArguments env d ts [e] := by
  intro s n count rp rest split closing fits few fuel
  obtain ⟨n, rfl⟩ : ∃ k, n = k + 1 := ⟨n - 1, by omega⟩
  obtain ⟨s₁, took, read⟩ := h.closed (n := n) split (by simp [closing, closings]) fits (by omega)
  have rest₁ := took.remains split
  have room : ¬ env.config.maxArgs ≤ (count : Int) := by
    rw [List.length_singleton] at few
    omega
  have head₁ := State.head_of_rest env rest₁
  have closes : (s₁.head env).kind = .rightParen := by rw [head₁, closing]
  have last : (s₁.head env).kind ≠ .comma := by rw [closes]; decide
  have whole := took.trans (.one env rest₁)
  rw [Nat.max_zero] at whole
  refine ⟨s₁.drop, whole, ?_⟩
  rw [Parser.arguments, if_neg room, outcome_bind_of_ok read,
    outcome_bind_of_ok (outcome_accept_of_ne last), if_neg (by decide),
    outcome_bind_of_ok (outcome_accept_of_eq closes), if_pos rfl, outcome_pure]

theorem ReadsArguments.more {comma : Token} {es : List (Expr α)} (separator : comma.kind = .comma)
    (h : ReadsChain env .or d₁ ts e) (more : ReadsArguments env d₂ us es) :
    ReadsArguments env (max d₁ d₂) (ts ++ comma :: us) (e :: es) := by
  intro s n count rp rest split closing fits few fuel
  obtain ⟨n, rfl⟩ : ∃ k, n = k + 1 := ⟨n - 1, by omega⟩
  rw [List.append_assoc, List.cons_append] at split
  obtain ⟨s₁, took, read⟩ :=
    h.closed (n := n) split (by simp [separator, closings]) (by omega) (by omega)
  have rest₁ := took.remains split
  have rest₂ := State.drop_rest rest₁
  have length := congrArg List.length split
  rw [List.length_append, List.length_cons] at length
  rw [List.length_cons] at few
  have depth₂ : s₁.drop.depth = s.depth := took.depth
  obtain ⟨s₃, took₃, read₃⟩ := more s₁.drop n (count + 1) rp rest rest₂ closing
    (by rw [depth₂]; omega) (by omega) (by rw [rest₂]; omega)
  have room : ¬ env.config.maxArgs ≤ (count : Int) := by omega
  have separated : (s₁.head env).kind = .comma := by
    rw [State.head_of_rest env rest₁, separator]
  have whole := (took.trans (.one env rest₁)).trans took₃
  refine ⟨s₃, by simpa using whole, ?_⟩
  rw [Parser.arguments, if_neg room, outcome_bind_of_ok read,
    outcome_bind_of_ok (outcome_accept_of_eq separated), if_pos rfl, outcome_bind_of_ok read₃,
    outcome_pure]

theorem ReadsPrimary.of_identifier {tok : Token} (kind : tok.kind = .ident)
    (h : ∀ s n rest, Before env .unary d (tok :: ts) rest s → 8 * s.rest.length + 2 ≤ n + 1 →
      ∃ s', Took env s (tok :: ts) d s' ∧
        outcome (Parser.identifier env (n + 1)) s = (.ok e, s')) :
    ReadsPrimary env d (tok :: ts) e := by
  intro s n rest before fuel
  obtain ⟨n, rfl⟩ : ∃ k, n = k + 2 := ⟨n - 2, by omega⟩
  obtain ⟨s', took, read⟩ := h s n rest before (by omega)
  refine ⟨s', took, ?_⟩
  rw [Parser.primary, outcome_bind_of_ok (outcome_peek env s),
    State.head_of_rest env before.rest, kind]
  exact read

theorem ReadsPrimary.constant {tok : Token} {x : α} (kind : tok.kind = .ident)
    (value : (Text.upper tok.text, x) ∈ constants) : ReadsPrimary env 0 [tok] (.num x) := by
  refine .of_identifier kind fun s n rest before _ => ⟨s.drop, .one env before.rest, ?_⟩
  rw [Parser.identifier, outcome_bind_of_ok (outcome_advance env s),
    State.head_of_rest env before.rest]
  dsimp only
  rw [constant?_eq_some_iff.2 value, outcome_pure]

theorem ReadsPrimary.bound {tok : Token} {x : α} (kind : tok.kind = .ident)
    (constant : ∀ y : α, (Text.upper tok.text, y) ∉ constants)
    (value : bound? env.dialect (Text.upper tok.text) = some x) :
    ReadsPrimary env 0 [tok] (.num x) := by
  refine .of_identifier kind fun s n rest before _ =>
    ⟨_, (Took.one env before.rest).log (e := .bound (Text.upper tok.text) x) (by simp), ?_⟩
  rw [Parser.identifier, outcome_bind_of_ok (outcome_advance env s),
    State.head_of_rest env before.rest]
  change (env.bindings.bind fun b => b.lookup? (Text.upper tok.text)) = some x at value
  dsimp only
  rw [constant?_eq_none_iff.2 constant, value]
  dsimp only
  rw [outcome_bind_of_ok (outcome_note _ _), outcome_pure]

theorem ReadsPrimary.name {tok : Token} (kind : tok.kind = .ident)
    (free : Free env.dialect (Text.upper tok.text)) (loose : env.strict = false) :
    ReadsPrimary env 0 [tok] (.var (Text.upper tok.text)) := by
  refine .of_identifier kind fun s n rest before _ => ⟨s.drop, .one env before.rest, ?_⟩
  have uncalled : (s.drop.head env).kind ≠ .leftParen := by
    rw [State.head, State.drop_rest before.rest]
    exact before.follow.uncalled
  have unbound : (env.bindings.bind fun b => b.lookup? (Text.upper tok.text)) = none := free.bound
  rw [Parser.identifier, outcome_bind_of_ok (outcome_advance env s),
    State.head_of_rest env before.rest]
  dsimp only
  rw [constant?_eq_none_iff.2 free.constant, unbound]
  dsimp only
  rw [outcome_bind_of_ok (outcome_accept_of_ne uncalled), if_neg (by decide), loose,
    if_neg (by decide), outcome_pure]

theorem ReadsPrimary.of_brackets {tok lp : Token} {args : List (Expr α)} (kind : tok.kind = .ident)
    (free : Free env.dialect (Text.upper tok.text)) (opening : lp.kind = .leftParen)
    (callable : Callable env.dialect (Text.upper tok.text) args.length)
    (inside : ∀ s n rest, s.rest = ts ++ rest →
      (d = 0 ∨ ((s.depth + d : Nat) : Int) ≤ env.config.maxDepth) →
      8 * s.rest.length + 6 ≤ n → ∃ s', Took env s ts d s' ∧
        outcome (accept env .rightParen >>= fun closes =>
          if closes then pure [] else Parser.arguments env n 0) s = (.ok args, s')) :
    ReadsPrimary env (d + 1) (tok :: lp :: ts) (callTree (Text.upper tok.text) args) := by
  refine .of_identifier kind fun s n rest before fuel => ?_
  have split : s.rest = tok :: lp :: (ts ++ rest) := before.rest
  have rest₁ := State.drop_rest split
  have rest₂ := State.drop_rest rest₁
  have opens : (s.drop.head env).kind = .leftParen := by
    rw [State.head_of_rest env rest₁, opening]
  have unbound : (env.bindings.bind fun b => b.lookup? (Text.upper tok.text)) = none := free.bound
  have fits := before.fits
  have deep : ((s.drop.drop.depth + 1 : Nat) : Int) ≤ env.config.maxDepth := by
    simp only [State.drop]
    omega
  have below : d = 0 ∨ ((s.drop.drop.down.depth + d : Nat) : Int) ≤ env.config.maxDepth := by
    simp only [State.drop, State.down]
    omega
  obtain ⟨s₂, took, read⟩ := inside s.drop.drop.down n rest rest₂ below (by
    rw [split, List.length_cons, List.length_cons] at fuel
    simp only [State.down, rest₂]
    omega)
  have whole := ((Took.one env split).trans (.one env rest₁)).trans (took.nest deep)
  rw [Nat.max_zero, Nat.zero_max] at whole
  rw [Parser.identifier, outcome_bind_of_ok (outcome_advance env s), State.head_of_rest env split]
  dsimp only
  rw [constant?_eq_none_iff.2 free.constant, unbound]
  dsimp only
  rw [outcome_bind_of_ok (outcome_accept_of_eq opens), if_pos rfl,
    outcome_bind_of_ok (outcome_nested deep read), outcome_finishCall,
    callIssue?_eq_none_iff.2 callable]
  refine ⟨_, ?_, rfl⟩
  have called := whole.log (e := .called (Text.upper tok.text) args.length) (by simp)
  split
  · exact called.log (by simp)
  · exact called

theorem ReadsPrimary.emptyCall {tok lp rp : Token} (kind : tok.kind = .ident)
    (free : Free env.dialect (Text.upper tok.text)) (opening : lp.kind = .leftParen)
    (closing : rp.kind = .rightParen) (callable : Callable env.dialect (Text.upper tok.text) 0) :
    ReadsPrimary env 1 [tok, lp, rp] (callTree (Text.upper tok.text) []) := by
  refine .of_brackets kind free opening callable fun s n rest split _ _ =>
    ⟨s.drop, .one env split, ?_⟩
  have closes : (s.head env).kind = .rightParen := by
    rw [State.head_of_rest env split, closing]
  rw [outcome_bind_of_ok (outcome_accept_of_eq closes), if_pos rfl, outcome_pure]

theorem ReadsPrimary.call {tok lp rp : Token} {args : List (Expr α)} (kind : tok.kind = .ident)
    (free : Free env.dialect (Text.upper tok.text)) (opening : lp.kind = .leftParen)
    (closing : rp.kind = .rightParen) (head : ∃ t us, ts = t :: us ∧ t.kind ∈ openings)
    (h : ReadsArguments env d ts args) (few : (args.length : Int) ≤ env.config.maxArgs)
    (callable : Callable env.dialect (Text.upper tok.text) args.length) :
    ReadsPrimary env (d + 1) (tok :: lp :: (ts ++ [rp])) (callTree (Text.upper tok.text) args) := by
  refine .of_brackets kind free opening callable fun s n rest split fits fuel => ?_
  rw [List.append_assoc, List.singleton_append] at split
  obtain ⟨s', took, read⟩ := h s n 0 rp rest split closing fits (by simpa using few) fuel
  refine ⟨s', took, ?_⟩
  obtain ⟨t, us, rfl, mem⟩ := head
  have opens : (s.head env).kind ≠ .rightParen := by
    rw [State.head_of_rest env split]
    rintro closes
    rw [closes] at mem
    simp [openings] at mem
  rw [outcome_bind_of_ok (outcome_accept_of_ne opens), if_neg (by decide), read]

end Levels

mutual
theorem reads_of_phrase {env : Setting α} (live : env.config.InTime) {l : Level} {d : Nat}
    {ts : List Token} {e : Expr α} : Phrase env.dialect l d ts e → Reads env l d ts e
  | .tighter loose h => (reads_of_phrase live h).loosen loose
  | .binary rule left right =>
    ⟨.binary live rule (reads_of_phrase live left).chain (reads_of_phrase live right).chain,
      fun tight => absurd (Nat.le_trans tight (level_rank_le rule)) (by decide)⟩
  | .negative minus kind value => .of_unary live _ (.negative minus kind value)
  | .negate minus unfolded h =>
    have some := by
      obtain ⟨t, us, rfl, -⟩ := h.opens
      simp
    .of_unary live _ (.negate minus unfolded some ((reads_of_phrase live h).unary (Nat.le_refl _)))
  | .not bang h => .of_unary live _ (.not bang ((reads_of_phrase live h).unary (Nat.le_refl _)))
  | .number kind value =>
    .of_unary live _ ((ReadsPrimary.number kind value).unary ⟨_, _, rfl, by simp [kind]⟩)
  | .constant kind value =>
    .of_unary live _ ((ReadsPrimary.constant kind value).unary ⟨_, _, rfl, by simp [kind]⟩)
  | .bound kind constant value =>
    .of_unary live _ ((ReadsPrimary.bound kind constant value).unary ⟨_, _, rfl, by simp [kind]⟩)
  | .name kind free loose =>
    .of_unary live _ ((ReadsPrimary.name kind free loose).unary ⟨_, _, rfl, by simp [kind]⟩)
  | .emptyCall kind free opening closing callable =>
    .of_unary live _ ((ReadsPrimary.emptyCall kind free opening closing callable).unary
      ⟨_, _, rfl, by simp [kind]⟩)
  | .call kind free opening closing h few callable =>
    .of_unary live _ ((ReadsPrimary.call kind free opening closing h.opens
      (reads_of_arguments live h) few callable).unary ⟨_, _, rfl, by simp [kind]⟩)
  | .brackets opening closing h =>
    .of_unary live _ ((ReadsPrimary.brackets opening closing (reads_of_phrase live h).chain).unary
      ⟨_, _, rfl, by simp [opening]⟩)
theorem reads_of_arguments {env : Setting α} (live : env.config.InTime) {d : Nat}
    {ts : List Token} {es : List (Expr α)} :
    Arguments env.dialect d ts es → ReadsArguments env d ts es
  | .last h => .last (reads_of_phrase live h).chain
  | .more separator h rest =>
    .more separator (reads_of_phrase live h).chain (reads_of_arguments live rest)
end

end DerivativeEngine.Parser
