import DerivativeEngine.Proofs.Expr.Nodes
import DerivativeEngine.Proofs.Scalar.Fields
import DerivativeEngine.Proofs.Source.Acceptance
import DerivativeEngine.Proofs.Source.Spelling

/-! Source of a tree, read again. The source of any tree of names, known operators and short calls
is written, from the numbers up, as a phrase for a tree that differs in two places only: an
undefined number is a quotient of zeros, and a call that its domain refuses is a zero. The trees
that are read at all are known by their nodes, and they hold neither, so they are read as
themselves. The text of a magnitude is taken to be one decimal literal that is read as the magnitude
again. -/

namespace DerivativeEngine

open Grammar

namespace Expr

section

variable {α : Type} [Scalar α]

/-- A node of a tree that is read. -/
def NodeReadable : Expr α → Prop
  | num x => Scalar.isNaN x = false
  | var name => IsName name
  | bin op _ _ => op ∈ BinaryOp.known
  | un op _ => op = .neg ∨ op = .not
  | call name args => IsName name ∧ args.length ≤ 10 ∧ ∀ x, args = [.num x] → ¬ OutOfDomain name x
  | tensor _ => False

/-- A node that has source of its own. -/
def NodeSpelled : Expr α → Prop
  | num _ => True
  | var name => IsName name
  | bin op _ _ => op ∈ BinaryOp.known
  | un op _ => op = .neg ∨ op = .not
  | call name args => IsName name ∧ args.length ≤ 10
  | tensor _ => False

def NotNaN : Expr α → Prop
  | num x => Scalar.isNaN x = false
  | _ => True

mutual
def reread : Expr α → Expr α
  | num x => if Scalar.isNaN x then bin .div (num 0) (num 0) else num x
  | var name => var name
  | bin op l r => bin op (reread l) (reread r)
  | un op e => un op (reread e)
  | call name args => callTree name (rereadAll args)
  | tensor t => tensor t
def rereadAll : List (Expr α) → List (Expr α)
  | [] => []
  | e :: es => reread e :: rereadAll es
end

mutual
/-- How deep the source of any tree nests, with the brackets of undefined numbers. -/
def sourceDepth : Expr α → Nat
  | num x => if Scalar.isNaN x then 1 else 0
  | var _ => 0
  | bin op l r => max (sourceDepth l) (sourceDepth r + if op = .pow then 1 else 0) + 1
  | un _ (num x) => (if Scalar.isNaN x then 1 else 0) + 2
  | un _ e => sourceDepth e + 1
  | call _ args => sourceDepthAll args + 1
  | tensor _ => 0
def sourceDepthAll : List (Expr α) → Nat
  | [] => 0
  | e :: es => max (sourceDepth e) (sourceDepthAll es)
end

end

/-- The shortest text of the magnitude of a number is a decimal literal of the same value. -/
def MagnitudeReadsBack : Expr Float → Prop
  | num x => x.isFinite = true → ∃ literal,
      Numeral.scanDecimal (Numeral.shortest x.abs).toList = some (literal, []) ∧
        literal.toFloat? = some x.abs
  | _ => True

mutual
/-- How deep the source of the tree nests. -/
def nesting {α : Type} : Expr α → Nat
  | num _ => 0
  | var _ => 0
  | bin op l r => max (nesting l) (nesting r + if op = .pow then 1 else 0) + 1
  | un _ (num _) => 2
  | un _ e => nesting e + 1
  | call _ args => nestingAll args + 1
  | tensor _ => 0
def nestingAll {α : Type} : List (Expr α) → Nat
  | [] => 0
  | e :: es => max (nesting e) (nestingAll es)
end

section

variable {α : Type} [Scalar α] {lang : Dialect α}

theorem readable_callTree {name : String} {args : List (Expr α)} (valid : IsName name)
    (few : args.length ≤ 10) (inside : EveryNodes NotNaN args → EveryNodes NodeReadable args)
    (numbers : (callTree name args).EveryNode NotNaN) :
    (callTree name args).EveryNode NodeReadable := by
  cases domain : Parser.domainWarning? name args with
  | some message =>
    rw [Parser.callTree_of_warning domain] at numbers ⊢
    exact numbers
  | none =>
    rw [Parser.callTree_of_silent domain] at numbers ⊢
    exact ⟨⟨valid, few, Parser.domainWarning?_eq_none_iff.1 domain⟩, inside numbers.2⟩

mutual
theorem readable_of_phrase (few : lang.maxArgs ≤ 10) {l : Level} {d : Nat} {ts : List Token}
    {e : Expr α} (names : ∀ tok ∈ ts, tok.kind = .ident → IsIdentifier tok.text.toList) :
    Phrase lang l d ts e → e.EveryNode NotNaN → e.EveryNode NodeReadable
  | .tighter _ h => readable_of_phrase few names h
  | .binary rule left right => by
    rintro ⟨-, numbersLeft, numbersRight⟩
    refine ⟨op_mem_known rule, readable_of_phrase few (fun t ht => names t ?_) left numbersLeft,
      readable_of_phrase few (fun t ht => names t ?_) right numbersRight⟩
    · exact List.mem_append_left _ ht
    · exact List.mem_append_right _ (List.mem_cons_of_mem _ ht)
  | .negative _ _ _ | .number _ _ | .constant _ _ | .bound _ _ _ => fun number => number
  | .negate _ _ h => fun numbers =>
    ⟨.inl rfl, readable_of_phrase few (fun t ht => names t (List.mem_cons_of_mem _ ht)) h numbers.2⟩
  | .not _ h => fun numbers =>
    ⟨.inr rfl, readable_of_phrase few (fun t ht => names t (List.mem_cons_of_mem _ ht)) h numbers.2⟩
  | .name kind free _ => fun _ =>
    isName_upper (names _ (by simp) kind) (notConstant_iff.1 free.constant)
  | .emptyCall kind free _ _ _ =>
    have valid := isName_upper (names _ (by simp) kind) (notConstant_iff.1 free.constant)
    readable_callTree valid (by simp) (fun _ => trivial)
  | .call kind free _ _ h fits _ => by
    have valid := isName_upper (names _ (by simp) kind) (notConstant_iff.1 free.constant)
    refine readable_callTree valid (by omega) (readable_of_arguments few (fun t ht => names t ?_) h)
    exact List.mem_cons_of_mem _ (List.mem_cons_of_mem _ (List.mem_append_left _ ht))
  | .brackets _ _ h =>
    readable_of_phrase few
      (fun t ht => names t (List.mem_cons_of_mem _ (List.mem_append_left _ ht))) h
theorem readable_of_arguments (few : lang.maxArgs ≤ 10) {d : Nat} {ts : List Token}
    {es : List (Expr α)} (names : ∀ tok ∈ ts, tok.kind = .ident → IsIdentifier tok.text.toList) :
    Arguments lang d ts es → EveryNodes NotNaN es → EveryNodes NodeReadable es
  | .last h => fun numbers => ⟨readable_of_phrase few names h numbers.1, trivial⟩
  | .more _ h rest => fun numbers =>
    ⟨readable_of_phrase few (fun t ht => names t (List.mem_append_left _ ht)) h numbers.1,
      readable_of_arguments few
        (fun t ht => names t (List.mem_append_right _ (List.mem_cons_of_mem _ ht))) rest numbers.2⟩
end

end

variable {k : Int}

theorem length_rereadAll {α : Type} [Scalar α] (es : List (Expr α)) :
    (rereadAll es).length = es.length := by
  induction es with
  | nil => rfl
  | cons e es ih => rw [rereadAll, List.length_cons, List.length_cons, ih]

theorem scanDecimal_huge :
    Numeral.scanDecimal "1e999".toList = some (⟨false, ['1'], [], 999⟩, []) := by
  decide

theorem writes_quotient :
    Writes (α := Float) k .primary 1 "(0/0)".toList (bin .div (num 0) (num 0)) := by
  have zero : Numeral.scanDecimal ['0'] = some (⟨false, ['0'], [], 0⟩, []) := by decide
  have value : Scalar.ofLiteral? ⟨false, ['0'], [], 0⟩ = some (0 : Float) := by decide
  have inside : Writes (α := Float) k .mul 0 ['0', '/', '0'] (bin .div (num 0) (num 0)) := by
    intro pos rest breaks
    have left : Token.Spells ['0'] ('/' :: '0' :: rest) .number :=
      Token.spells_literal (.inl rfl) rfl
    have slash : Token.Spells ['/'] ('0' :: rest) .slash :=
      Token.spells_single (by decide) rfl rfl
    obtain ⟨x, pos₁, tokens₁, kind₁, text₁⟩ := left.token pos
    obtain ⟨tok, pos₂, tokens₂, kind₂, -⟩ := slash.token pos₁
    obtain ⟨y, pos₃, tokens₃, kind₃, text₃⟩ := (Token.spells_number breaks zero).token pos₂
    rw [List.singleton_append] at tokens₁ tokens₂ tokens₃
    rw [tokens₂, tokens₃] at tokens₁
    have dividend : Phrase (.plain k) .primary 0 [x] (num (0 : Float)) :=
      .number kind₁ (numberValue?_of_scanDecimal text₁ zero value)
    have divisor : Phrase (.plain k) .primary 0 [y] (num (0 : Float)) :=
      .number kind₃ (numberValue?_of_scanDecimal text₃ zero value)
    refine ⟨[x, tok, y], pos₃, tokens₁, ?_⟩
    exact .binary (by rw [kind₂]; rfl) (dividend.tighter (by decide)) (divisor.tighter (by decide))
  exact (inside.tighter (l := .or) (by decide)).brackets

theorem writes_numberSource {x : Float} (text : MagnitudeReadsBack (num x)) :
    Writes k .unary (num x).sourceDepth (numberSource x).toList (num x).reread := by
  unfold numberSource
  rw [sourceDepth, reread]
  cases number : Scalar.isNaN x with
  | true =>
    simp only [if_true]
    exact writes_quotient.tighter (by decide)
  | false =>
    simp only [Bool.false_eq_true, if_false]
    cases finite : x.isFinite with
    | true =>
      rw [if_pos (show Scalar.isFinite x = true from finite)]
      obtain ⟨literal, scanned, value⟩ := text finite
      rcases Double.eq_abs_or_eq_neg_abs (Double.numeric_of_isFinite finite) with
        ⟨same, -⟩ | ⟨negated, negative⟩
      · rw [same] at scanned value
        exact (writes_number scanned value).tighter (by decide)
      · have written : Writes k .unary 0 _ (num (-x.abs)) := writes_negative scanned value
        rw [negated, ← Double.shortest_of_negative finite negative] at written
        exact written
    | false =>
      rw [if_neg (by rw [show Scalar.isFinite x = x.isFinite from rfl, finite]; decide)]
      have value : Numeral.Literal.toFloat? ⟨false, ['1'], [], 999⟩ = some (1.0 / 0.0) := by decide
      rcases Double.eq_infinity finite number with ⟨positive, rfl⟩ | ⟨negative, rfl⟩
      · rw [if_pos (by decide)]
        exact (writes_number scanDecimal_huge value).tighter (by decide)
      · rw [if_neg (by decide)]
        exact writes_negative scanDecimal_huge value

theorem toSource_un (op : UnaryOp) {e : Expr Float} (other : ∀ x, e ≠ num x) :
    (un op e).toSource = op.text ++ e.toSource := by
  rw [toSource]
  exact other

theorem sourceDepth_un (op : UnaryOp) {e : Expr Float} (other : ∀ x, e ≠ num x) :
    (un op e).sourceDepth = e.sourceDepth + 1 := by
  rw [sourceDepth]
  exact other

theorem unsigned_mark {c : Char} {rest : List Char} (mark : c ∈ Token.marks) (other : c ≠ '=') :
    Unsigned (c :: rest) := by
  obtain ⟨blank, digit, -⟩ := Token.plain_of_mem_marks mark
  exact ⟨c, rest, rfl, blank, digit, other⟩

theorem unsigned_name {name : String} (h : IsName name) (rest : List Char) :
    Unsigned (name.toList ++ rest) := by
  obtain ⟨c, cs, hcs, start, -⟩ := h.identifier.letters
  obtain ⟨blank, digit⟩ := Token.letter_plain start
  refine ⟨c, cs ++ rest, by rw [hcs, List.cons_append], blank, digit, ?_⟩
  rintro rfl
  exact absurd start (by decide)

theorem unsigned_toSource {e : Expr Float} (h : e.EveryNode NodeSpelled)
    (other : ∀ x, e ≠ num x) : Unsigned e.toSource.toList := by
  cases e with
  | num x => exact absurd rfl (other x)
  | var name => simpa [toSource] using unsigned_name h []
  | bin op l r =>
    simp only [toSource, String.toList_append, List.append_assoc]
    exact unsigned_mark (by decide) (by decide)
  | un op e =>
    have sign : ∀ rest, Unsigned (op.text.toList ++ rest) := by
      intro rest
      rcases h.1 with rfl | rfl
      · exact unsigned_mark (c := '-') (by decide) (by decide)
      · exact unsigned_mark (c := '!') (by decide) (by decide)
    by_cases number : ∃ x, e = num x
    · obtain ⟨x, rfl⟩ := number
      simpa only [toSource, String.toList_append, List.append_assoc] using sign _
    · rw [toSource_un op fun x hx => number ⟨x, hx⟩, String.toList_append]
      exact sign _
  | call name args =>
    simp only [toSource, String.toList_append, List.append_assoc]
    exact unsigned_name h.1.1 _
  | tensor t => exact absurd h id

theorem writes_sign {op : UnaryOp} (known : op = .neg ∨ op = .not) {d : Nat} {cs : List Char}
    {e : Expr Float} (unsigned : Unsigned cs) (h : Writes k .unary d cs e) :
    Writes k .unary (d + 1) (op.text.toList ++ cs) (un op e) := by
  rcases known with rfl | rfl
  · exact h.negate unsigned
  · exact h.not unsigned

mutual
/-- The source of a tree is written as a phrase for what it is read as. -/
theorem writes_toSource (few : 10 ≤ k) : ∀ e : Expr Float, e.EveryNode NodeSpelled →
    e.EveryNode MagnitudeReadsBack → Writes k .unary e.sourceDepth e.toSource.toList e.reread
  | num x, _, text => writes_numberSource text
  | var name, h, _ => (writes_name h).tighter (by decide)
  | bin op l r, h, text => by
    have written := Writes.binary h.1 (writes_toSource few l h.2.1 text.2.1)
      (writes_toSource few r h.2.2 text.2.2)
    have spelled : (bin op l r).toSource.toList = '(' :: (l.toSource.toList ++ ' ' ::
        (op.text.toList ++ ' ' :: (r.toSource.toList ++ [')']))) := by
      simp [toSource]
    rw [spelled, sourceDepth, reread]
    exact written.tighter (by decide)
  | un op e, h, text => by
    by_cases number : ∃ x, e = num x
    · obtain ⟨x, rfl⟩ := number
      have written := @writes_numberSource k x text.2
      have signed := writes_sign h.1 (unsigned_mark (by decide) (by decide))
        ((written.tighter (l := .or) (Nat.zero_le _)).brackets.tighter (l := .unary) (by decide))
      have spelled : (un op (num x)).toSource.toList =
          op.text.toList ++ '(' :: ((numberSource x).toList ++ [')']) := by
        simp [toSource]
      rw [spelled]
      exact signed
    · have other : ∀ x, e ≠ num x := fun x hx => number ⟨x, hx⟩
      have written := writes_toSource few e h.2 text.2
      rw [toSource_un op other, sourceDepth_un op other, String.toList_append, reread]
      exact writes_sign h.1 (unsigned_toSource h.2 other) written
  | call name [], h, _ => by
    have written := writes_emptyCall (α := Float) (k := k) h.1.1
    have spelled : (call (α := Float) name []).toSource.toList = name.toList ++ ['(', ')'] := by
      simp [toSource, toSources]
    rw [spelled]
    exact written.tighter (by decide)
  | call name (e :: es), h, text => by
    have short : (e :: es).length ≤ 10 := h.1.2
    have written := (writesAll_toSources few (e :: es) (by simp) h.2 text.2).call h.1.1
      (by rw [length_rereadAll]; omega)
    have spelled : (call name (e :: es)).toSource.toList =
        name.toList ++ '(' :: ((", ".intercalate (toSources (e :: es))).toList ++ [')']) := by
      simp [toSource]
    rw [spelled]
    exact written.tighter (by decide)
  | tensor t, h, _ => absurd h id
theorem writesAll_toSources (few : 10 ≤ k) : ∀ es : List (Expr Float), es ≠ [] →
    EveryNodes NodeSpelled es → EveryNodes MagnitudeReadsBack es →
    WritesAll k (sourceDepthAll es) (", ".intercalate (toSources es)).toList (rereadAll es)
  | [], nonempty, _, _ => absurd rfl nonempty
  | [e], _, h, text => by
    have written := writes_toSource few e h.1 text.1
    have last := WritesAll.last (written.tighter (l := .or) (Nat.zero_le _))
    simpa [toSources, sourceDepthAll, rereadAll] using last
  | e :: e' :: es, _, h, text => by
    have written := writes_toSource few e h.1 text.1
    have more := writesAll_toSources few (e' :: es) (by simp) h.2 text.2
    have all := WritesAll.more (written.tighter (l := .or) (Nat.zero_le _)) more
    rw [sourceDepthAll, rereadAll, toSources, toSources, String.intercalate_cons_cons]
    simpa [toSources] using all
end

theorem parse_of_spelled {e : Expr Float} (numbers : e.EveryNode MagnitudeReadsBack)
    (spelled : e.EveryNode NodeSpelled) {config : TimedConfig} (s : Engine)
    (live : config.InTime) (short : (e.toSource.utf8ByteSize : Int) ≤ config.maxLength)
    (shallow : (e.sourceDepth : Int) ≤ config.maxDepth) (few : 10 ≤ config.maxArgs) :
    (Source.parse e.toSource none config s).1 = .ok e.reread := by
  have written := (writes_toSource few e spelled numbers).tighter (l := .or) (Nat.zero_le _)
  obtain ⟨ts, pos, tokens, phrase⟩ := written 0 [] .nil
  have lexemes : Token.lexemes e.toSource = ts := by
    have nothing : Token.ofChars pos 0 [] = [] := Token.ofChars_of_blank rfl
    rw [nothing, List.append_nil, List.append_nil] at tokens
    exact tokens
  rw [← lexemes] at phrase
  exact Source.parse_of_phrase live short s phrase (.inr shallow)

theorem spelled_of_readable {e : Expr Float} (h : e.EveryNode NodeReadable) :
    e.EveryNode NodeSpelled := by
  refine h.mono fun e readable => ?_
  cases e with
  | num x => trivial
  | call name args => exact ⟨readable.1, readable.2.1⟩
  | _ => exact readable

mutual
theorem sourceDepth_of_notNaN : ∀ e : Expr Float, e.EveryNode NotNaN → e.sourceDepth = e.nesting
  | num x, number => by rw [sourceDepth, nesting, show Scalar.isNaN x = false from number]; rfl
  | var name, _ => rfl
  | bin op l r, numbers => by
    rw [sourceDepth, nesting, sourceDepth_of_notNaN l numbers.2.1,
      sourceDepth_of_notNaN r numbers.2.2]
  | un op e, numbers => by
    by_cases number : ∃ x, e = num x
    · obtain ⟨x, rfl⟩ := number
      rw [sourceDepth, nesting, show Scalar.isNaN x = false from numbers.2]
      rfl
    · have other : ∀ x, e ≠ num x := fun x hx => number ⟨x, hx⟩
      rw [sourceDepth_un op other, nesting, sourceDepth_of_notNaN e numbers.2]
      exact other
  | call name args, numbers => by
    rw [sourceDepth, nesting, sourceDepthAll_of_notNaN args numbers.2]
  | tensor t, _ => rfl
theorem sourceDepthAll_of_notNaN : ∀ es : List (Expr Float), EveryNodes NotNaN es →
    sourceDepthAll es = nestingAll es
  | [], _ => rfl
  | e :: es, numbers => by
    rw [sourceDepthAll, nestingAll, sourceDepth_of_notNaN e numbers.1,
      sourceDepthAll_of_notNaN es numbers.2]
end

mutual
theorem reread_of_readable : ∀ e : Expr Float, e.EveryNode NodeReadable → e.reread = e
  | num x, number => by rw [reread, show Scalar.isNaN x = false from number]; rfl
  | var name, _ => rfl
  | bin op l r, h => by rw [reread, reread_of_readable l h.2.1, reread_of_readable r h.2.2]
  | un op e, h => by rw [reread, reread_of_readable e h.2]
  | call name args, h => by rw [reread, rereadAll_of_readable args h.2,
    Parser.callTree_of_silent (Parser.domainWarning?_eq_none_iff.2 h.1.2.2)]
  | tensor t, _ => rfl
theorem rereadAll_of_readable : ∀ es : List (Expr Float), EveryNodes NodeReadable es →
    rereadAll es = es
  | [], _ => rfl
  | e :: es, h => by rw [rereadAll, reread_of_readable e h.1, rereadAll_of_readable es h.2]
end

theorem notNaN_of_readable {t : Expr Float} (h : t.EveryNode NodeReadable) :
    t.EveryNode NotNaN := by
  refine h.mono fun e readable => ?_
  cases e with
  | num x => exact readable
  | _ => trivial

theorem parse_of_readable {t : Expr Float} (numbers : t.EveryNode MagnitudeReadsBack)
    (readable : t.EveryNode NodeReadable) {config : TimedConfig} (s : Engine)
    (live : config.InTime) (short : (t.toSource.utf8ByteSize : Int) ≤ config.maxLength)
    (shallow : (t.nesting : Int) ≤ config.maxDepth) (few : 10 ≤ config.maxArgs) :
    (Source.parse t.toSource none config s).1 = .ok t := by
  rw [← sourceDepth_of_notNaN t (notNaN_of_readable readable)] at shallow
  have read := parse_of_spelled numbers (spelled_of_readable readable) s live short shallow few
  rwa [reread_of_readable t readable] at read

/-- Some source is read as the tree, with any values bound and at most ten arguments of a call,
and no number in the tree is undefined. -/
def Returned (t : Expr Float) : Prop :=
  t.EveryNode NotNaN ∧ ∃ (source : String) (bindings : Option (Bindings Float))
    (config : TimedConfig) (s : Engine), config.maxArgs ≤ 10 ∧
      (Source.parse source bindings config s).1 = .ok t

theorem readable_of_returned {t : Expr Float} (h : Returned t) : t.EveryNode NodeReadable := by
  obtain ⟨numbers, source, bindings, config, s, few, read⟩ := h
  obtain ⟨d, phrase, -⟩ := Source.phrase_of_parse read
  exact readable_of_phrase few (fun tok mem kind => Token.isIdentifier_of_mem mem kind)
    phrase numbers

/-- The trees that are read are the readable ones, and the source of each is read as the tree. -/
theorem parse_toSource {t : Expr Float} (numbers : t.EveryNode MagnitudeReadsBack) :
    (Returned t ↔ t.EveryNode NodeReadable) ∧
      (t.EveryNode NodeReadable → ∀ (config : TimedConfig) (s : Engine), config.InTime →
        (t.toSource.utf8ByteSize : Int) ≤ config.maxLength →
        (t.nesting : Int) ≤ config.maxDepth → 10 ≤ config.maxArgs →
        (Source.parse t.toSource none config s).1 = .ok t) := by
  refine ⟨⟨readable_of_returned, fun readable => ?_⟩,
    fun readable config s live short shallow few =>
      parse_of_readable numbers readable s live short shallow few⟩
  let config : TimedConfig :=
    { maxLength := t.toSource.utf8ByteSize, maxDepth := t.nesting }
  have live : config.InTime :=
    TimedConfig.inTime_of_untimed (show ¬ 0.0 < ({} : TimedConfig).timeoutMs by decide)
  exact ⟨notNaN_of_readable readable, t.toSource, none, config, .start, Int.le_refl 10,
    parse_of_readable numbers readable .start live (Int.le_refl _) (Int.le_refl _)
      (Int.le_refl 10)⟩

theorem parse_toSource_power :
    let power : Expr Float := bin .pow (num (-2.5)) (un .neg (var "X"))
    power.EveryNode MagnitudeReadsBack ∧ power.EveryNode NodeReadable ∧
      power.toSource = "(-2.5 ^ -X)" ∧
      (Source.parse "(-2.5 ^ -X)" none {} .start).1 = .ok power := by
  intro power
  have numbers : power.EveryNode MagnitudeReadsBack := by
    refine ⟨trivial, fun _ => ⟨⟨false, ['2'], ['5'], 0⟩, ?_, ?_⟩, trivial, trivial⟩
    · decide +kernel
    · decide +kernel
  have capital : ∀ c ∈ "X".toList, isSmall c = false := by
    intro c hc
    obtain rfl : c = 'X' := List.mem_singleton.1 hc
    decide
  have valid : IsName "X" := ⟨⟨⟨'X', [], rfl, rfl, by simp⟩, by decide⟩, capital, by decide⟩
  have readable : power.EveryNode NodeReadable :=
    ⟨show BinaryOp.pow ∈ BinaryOp.known by decide, show (-2.5 : Float).isNaN = false by decide,
      .inl rfl, valid⟩
  have text : power.toSource = "(-2.5 ^ -X)" := by decide +kernel
  have read := (parse_toSource numbers).2 readable {} .start
    (TimedConfig.inTime_of_untimed (by decide)) (by rw [text]; decide) (by decide) (by decide)
  rw [text] at read
  exact ⟨numbers, readable, text, read⟩

end Expr

end DerivativeEngine
