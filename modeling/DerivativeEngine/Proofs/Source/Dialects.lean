import DerivativeEngine.Proofs.Expr.Bindings
import DerivativeEngine.Proofs.Expr.Nodes
import DerivativeEngine.Proofs.Source.Folding
import DerivativeEngine.Proofs.Source.Names
import DerivativeEngine.Proofs.Source.Totality

/-! One source in two dialects. A name may be bound while the source is read or when the tree is
evaluated: where every name in front of an opening bracket is free, the row of tokens is a phrase
either way, and only literals take the place of variables. Such a literal may bring a call outside
its domain, which is then read as zero, but zero is what evaluation makes of the call. Names may
also have to be known while the source is read: the strict phrases are those loose ones whose tree
holds no variable and no call but of built-ins with all their arguments. A call that was read as
zero is out of sight in the tree, and is known by its domain. -/

namespace DerivativeEngine

open Grammar

section Binding

variable {α : Type} {b : Option (Bindings α)} {strict : Bool} {k : Int} {ts us : List Token}
  {tok lp : Token}

structure Token.Bound (b : Option (Bindings α)) (tok : Token) : Prop where
  kind : tok.kind = .ident
  notConstant : Text.upper tok.text ≠ "PI" ∧ Text.upper tok.text ≠ "E"
  contained : ∃ c ∈ b, c.contains (Text.upper tok.text) = true

/-- No bound identifier stands right in front of an opening bracket. -/
def Uncalled (b : Option (Bindings α)) (ts : List Token) : Prop :=
  ts.IsChain fun tok next => ¬ (tok.Bound b ∧ next.kind = .leftParen)

theorem uncalled_singleton (b : Option (Bindings α)) (tok : Token) : Uncalled b [tok] :=
  List.isChain_singleton tok

theorem uncalled_cons (other : tok.kind ≠ .ident) : Uncalled b (tok :: ts) ↔ Uncalled b ts := by
  have unbound : ¬ tok.Bound b := fun bound => other bound.kind
  simp [Uncalled, List.isChain_cons, unbound]

theorem uncalled_append_cons (other : tok.kind ≠ .ident) (closed : tok.kind ≠ .leftParen) :
    Uncalled b (ts ++ tok :: us) ↔ Uncalled b ts ∧ Uncalled b us := by
  have rest := @uncalled_cons _ b us tok other
  unfold Uncalled at rest ⊢
  rw [List.isChain_append, rest]
  simp [closed]

theorem uncalled_call (opening : lp.kind = .leftParen) :
    Uncalled b (tok :: lp :: ts) ↔ ¬ tok.Bound b ∧ Uncalled b ts := by
  have rest := @uncalled_cons _ b ts lp (by rw [opening]; decide)
  unfold Uncalled at rest ⊢
  rw [List.isChain_cons_cons, rest]
  simp [opening]

theorem uncalled_brackets {rp : Token} (opening : lp.kind = .leftParen)
    (closing : rp.kind = .rightParen) : Uncalled b (lp :: (ts ++ [rp])) ↔ Uncalled b ts := by
  rw [uncalled_cons (by rw [opening]; decide),
    uncalled_append_cons (by rw [closing]; decide) (by rw [closing]; decide)]
  exact and_iff_left List.isChain_nil

theorem kind_of_rule {k : TokenKind} {r : Rule} (h : rule? k = some r) :
    k ≠ .ident ∧ k ≠ .leftParen := by
  refine ⟨?_, ?_⟩ <;> rintro rfl <;> simp [rule?] at h

theorem bound?_eq_none_iff {name : String} :
    bound? (⟨b, strict, k⟩ : Dialect α) name = none ↔ ¬ ∃ c ∈ b, c.contains name = true := by
  cases b with
  | none => simp [bound?]
  | some c =>
    have same := c.isSome_lookup? name
    cases value : c.lookup? name <;> simp_all [bound?]

variable [Scalar α]

theorem not_bound_of_free (h : Free (⟨b, strict, k⟩ : Dialect α) (Text.upper tok.text)) :
    ¬ tok.Bound b :=
  fun bound => bound?_eq_none_iff.1 h.bound bound.contained

theorem free_of_not_bound (kind : tok.kind = .ident) {lang : Dialect α}
    (free : Free lang (Text.upper tok.text)) (h : ¬ tok.Bound b) :
    Free (⟨b, strict, k⟩ : Dialect α) (Text.upper tok.text) :=
  ⟨free.constant, bound?_eq_none_iff.2 fun contained =>
    h ⟨kind, notConstant_iff.1 free.constant, contained⟩⟩

mutual
/-- A bound identifier in front of a bracket is read as a number, and nothing goes on from a number
with a bracket. -/
theorem uncalled_of_phrase {l : Level} {d : Nat} {ts : List Token} {e : Expr α} :
    Phrase ⟨b, strict, k⟩ l d ts e → Uncalled b ts
  | .tighter _ h => uncalled_of_phrase h
  | .binary rule left right =>
    (uncalled_append_cons (kind_of_rule rule).1 (kind_of_rule rule).2).2
      ⟨uncalled_of_phrase left, uncalled_of_phrase right⟩
  | .negative minus _ _ => (uncalled_cons (by rw [minus]; decide)).2 (uncalled_singleton b _)
  | .negate minus _ h => (uncalled_cons (by rw [minus]; decide)).2 (uncalled_of_phrase h)
  | .not bang h => (uncalled_cons (by rw [bang]; decide)).2 (uncalled_of_phrase h)
  | .number _ _ | .constant _ _ | .bound _ _ _ | .name _ _ _ => uncalled_singleton b _
  | .emptyCall _ free opening _ _ =>
    (uncalled_call opening).2 ⟨not_bound_of_free free, uncalled_singleton b _⟩
  | .call _ free opening closing h _ _ =>
    have inside := (uncalled_brackets opening closing).2 (uncalled_of_arguments h)
    have inside := (uncalled_cons (by rw [opening]; decide)).1 inside
    (uncalled_call opening).2 ⟨not_bound_of_free free, inside⟩
  | .brackets opening closing h => (uncalled_brackets opening closing).2 (uncalled_of_phrase h)
theorem uncalled_of_arguments {d : Nat} {ts : List Token} {es : List (Expr α)} :
    Arguments ⟨b, strict, k⟩ d ts es → Uncalled b ts
  | .last h => uncalled_of_phrase h
  | .more separator h rest =>
    (uncalled_append_cons (by rw [separator]; decide) (by rw [separator]; decide)).2
      ⟨uncalled_of_phrase h, uncalled_of_arguments rest⟩
end

mutual
theorem phrase_of_uncalled {b : Option (Bindings Float)} {l : Level} {d : Nat} {ts : List Token}
    {e : Expr Float} : Phrase ⟨none, false, k⟩ l d ts e → Uncalled b ts →
      ∃ e', Phrase ⟨b, false, k⟩ l d ts e' ∧ ∀ s, e'.evaluate b s = e.evaluate b s
  | .tighter loose h, free => by
    obtain ⟨e', phrase, same⟩ := phrase_of_uncalled h free
    exact ⟨e', .tighter loose phrase, same⟩
  | .binary rule left right, free => by
    obtain ⟨freeLeft, freeRight⟩ :=
      (uncalled_append_cons (kind_of_rule rule).1 (kind_of_rule rule).2).1 free
    obtain ⟨e₁, phrase₁, same₁⟩ := phrase_of_uncalled left freeLeft
    obtain ⟨e₂, phrase₂, same₂⟩ := phrase_of_uncalled right freeRight
    refine ⟨_, .binary rule phrase₁ phrase₂, fun s => ?_⟩
    simp only [Expr.evaluate, same₁, same₂]
  | .negative minus kind value, _ => ⟨_, .negative minus kind value, fun _ => rfl⟩
  | .negate minus unfolded h, free => by
    obtain ⟨e', phrase, same⟩ :=
      phrase_of_uncalled h ((uncalled_cons (by rw [minus]; decide)).1 free)
    refine ⟨_, .negate minus unfolded phrase, fun s => ?_⟩
    simp only [Expr.evaluate, same]
  | .not bang h, free => by
    obtain ⟨e', phrase, same⟩ :=
      phrase_of_uncalled h ((uncalled_cons (by rw [bang]; decide)).1 free)
    refine ⟨_, .not bang phrase, fun s => ?_⟩
    simp only [Expr.evaluate, same]
  | .number kind value, _ => ⟨_, .number kind value, fun _ => rfl⟩
  | .constant kind value, _ => ⟨_, .constant kind value, fun _ => rfl⟩
  | .bound _ _ value, _ => by simp [bound?] at value
  | @Phrase.name _ _ _ tok kind free loose, _ => by
    cases value : bound? (⟨b, false, k⟩ : Dialect Float) (Text.upper tok.text) with
    | none => exact ⟨_, .name kind ⟨free.constant, value⟩ rfl, fun _ => rfl⟩
    | some x =>
      refine ⟨_, .bound kind free.constant value, fun s => ?_⟩
      have stands : Expr.valueOf b (Text.upper tok.text) = x := congrArg (·.getD 0) value
      simp only [Expr.evaluate, stands]
  | .emptyCall kind free opening closing callable, uncalled => by
    obtain ⟨unbound, -⟩ := (uncalled_call opening).1 uncalled
    have free : Free (⟨b, false, k⟩ : Dialect Float) _ := free_of_not_bound kind free unbound
    exact ⟨_, .emptyCall kind free opening closing Bool.noConfusion, fun _ => rfl⟩
  | .call kind free opening closing h few callable, uncalled => by
    obtain ⟨unbound, rest⟩ := (uncalled_call opening).1 uncalled
    have inside := (uncalled_brackets opening closing).1
      ((uncalled_cons (by rw [opening]; decide)).2 rest)
    obtain ⟨args, phrases, length, same⟩ := arguments_of_uncalled h inside
    have free : Free (⟨b, false, k⟩ : Dialect Float) _ := free_of_not_bound kind free unbound
    refine ⟨_, .call kind free opening closing phrases (length ▸ few) Bool.noConfusion,
      fun s => ?_⟩
    simp only [evaluate_callTree, Expr.evaluate, same]
  | .brackets opening closing h, free => by
    obtain ⟨e', phrase, same⟩ :=
      phrase_of_uncalled h ((uncalled_brackets opening closing).1 free)
    exact ⟨e', .brackets opening closing phrase, same⟩
theorem arguments_of_uncalled {b : Option (Bindings Float)} {d : Nat} {ts : List Token}
    {es : List (Expr Float)} : Arguments ⟨none, false, k⟩ d ts es → Uncalled b ts →
      ∃ es', Arguments ⟨b, false, k⟩ d ts es' ∧ es'.length = es.length ∧
        ∀ s, Expr.evaluateAll b es' s = Expr.evaluateAll b es s
  | .last h, free => by
    obtain ⟨e', phrase, same⟩ := phrase_of_uncalled h free
    refine ⟨[e'], .last phrase, rfl, fun s => ?_⟩
    simp only [Expr.evaluateAll, same]
  | .more separator h rest, free => by
    obtain ⟨first, others⟩ := (uncalled_append_cons (by rw [separator]; decide)
      (by rw [separator]; decide)).1 free
    obtain ⟨e', phrase, same⟩ := phrase_of_uncalled h first
    obtain ⟨es', phrases, length, sames⟩ := arguments_of_uncalled rest others
    refine ⟨e' :: es', .more separator phrase phrases, congrArg (· + 1) length, fun s => ?_⟩
    simp only [Expr.evaluateAll, same, sames]
end

end Binding

section Strictness

variable {α : Type} [Scalar α]

/-- A node that needs no binding and asks for no unknown function. -/
def Resolved : Expr α → Prop
  | .var _ => False
  | .call name args => ∃ f, Builtin.ofName? name = some f ∧ f.arity = args.length
  | _ => True

theorem resolved_callTree_iff {name : String} {args : List (Expr α)} :
    (callTree name args).EveryNode Resolved ↔
      (∃ f, Builtin.ofName? name = some f ∧ f.arity = args.length) ∧
        Expr.EveryNodes Resolved args := by
  cases warning : Parser.domainWarning? name args with
  | none =>
    rw [Parser.callTree_of_silent warning]
    rfl
  | some message =>
    obtain ⟨x, rfl, known⟩ := Parser.eq_literal_of_domainWarning warning
    rw [Parser.callTree_of_warning warning]
    refine iff_of_true trivial ⟨Parser.callFault?_eq_none_iff.1 ?_, trivial, trivial⟩
    have fits : ∀ name ∈ ["SQRT", "LOG", "LN", "LOG10"], Parser.callFault? name 1 = none := by
      decide +kernel
    refine fits name ?_
    rcases known with ⟨rfl, -⟩ | ⟨mem, -⟩
    · exact List.mem_cons_self
    · exact List.mem_cons_of_mem _ mem

variable {b : Option (Bindings α)} {k : Int}

mutual
theorem phrase_of_strict {l : Level} {d : Nat} {ts : List Token} {e : Expr α} :
    Phrase ⟨b, true, k⟩ l d ts e → Phrase ⟨b, false, k⟩ l d ts e ∧ e.EveryNode Resolved
  | .tighter loose h => (phrase_of_strict h).imp_left (.tighter loose)
  | .binary rule left right => by
    obtain ⟨phrase₁, resolved₁⟩ := phrase_of_strict left
    obtain ⟨phrase₂, resolved₂⟩ := phrase_of_strict right
    exact ⟨.binary rule phrase₁ phrase₂, trivial, resolved₁, resolved₂⟩
  | .negative minus kind value => ⟨.negative minus kind value, trivial⟩
  | .negate minus unfolded h =>
    (phrase_of_strict h).imp (.negate minus unfolded) fun resolved => ⟨trivial, resolved⟩
  | .not bang h => (phrase_of_strict h).imp (.not bang) fun resolved => ⟨trivial, resolved⟩
  | .number kind value => ⟨.number kind value, trivial⟩
  | .constant kind value => ⟨.constant kind value, trivial⟩
  | .bound kind constant value => ⟨.bound kind constant value, trivial⟩
  | .name _ _ loose => Bool.noConfusion loose
  | .emptyCall kind free opening closing callable =>
    ⟨.emptyCall kind ⟨free.constant, free.bound⟩ opening closing Bool.noConfusion,
      resolved_callTree_iff.2 ⟨callable rfl, trivial⟩⟩
  | .call kind free opening closing h few callable => by
    obtain ⟨phrases, resolved⟩ := arguments_of_strict h
    exact ⟨.call kind ⟨free.constant, free.bound⟩ opening closing phrases few Bool.noConfusion,
      resolved_callTree_iff.2 ⟨callable rfl, resolved⟩⟩
  | .brackets opening closing h => (phrase_of_strict h).imp_left (.brackets opening closing)
theorem arguments_of_strict {d : Nat} {ts : List Token} {es : List (Expr α)} :
    Arguments ⟨b, true, k⟩ d ts es →
      Arguments ⟨b, false, k⟩ d ts es ∧ Expr.EveryNodes Resolved es
  | .last h => (phrase_of_strict h).imp .last fun resolved => ⟨resolved, trivial⟩
  | .more separator h rest => by
    obtain ⟨phrase, resolved⟩ := phrase_of_strict h
    obtain ⟨phrases, all⟩ := arguments_of_strict rest
    exact ⟨.more separator phrase phrases, resolved, all⟩
end

mutual
theorem strict_of_phrase {l : Level} {d : Nat} {ts : List Token} {e : Expr α} :
    Phrase ⟨b, false, k⟩ l d ts e → e.EveryNode Resolved → Phrase ⟨b, true, k⟩ l d ts e
  | .tighter loose h, resolved => .tighter loose (strict_of_phrase h resolved)
  | .binary rule left right, resolved =>
    .binary rule (strict_of_phrase left resolved.2.1) (strict_of_phrase right resolved.2.2)
  | .negative minus kind value, _ => .negative minus kind value
  | .negate minus unfolded h, resolved =>
    .negate minus unfolded (strict_of_phrase h resolved.2)
  | .not bang h, resolved => .not bang (strict_of_phrase h resolved.2)
  | .number kind value, _ => .number kind value
  | .constant kind value, _ => .constant kind value
  | .bound kind constant value, _ => .bound kind constant value
  | .name _ _ _, resolved => absurd resolved id
  | .emptyCall kind free opening closing _, resolved =>
    .emptyCall kind ⟨free.constant, free.bound⟩ opening closing fun _ =>
      (resolved_callTree_iff.1 resolved).1
  | .call kind free opening closing h few _, resolved =>
    .call kind ⟨free.constant, free.bound⟩ opening closing
      (strict_of_arguments h (resolved_callTree_iff.1 resolved).2) few fun _ =>
        (resolved_callTree_iff.1 resolved).1
  | .brackets opening closing h, resolved =>
    .brackets opening closing (strict_of_phrase h resolved)
theorem strict_of_arguments {d : Nat} {ts : List Token} {es : List (Expr α)} :
    Arguments ⟨b, false, k⟩ d ts es → Expr.EveryNodes Resolved es → Arguments ⟨b, true, k⟩ d ts es
  | .last h, resolved => .last (strict_of_phrase h resolved.1)
  | .more separator h rest, resolved =>
    .more separator (strict_of_phrase h resolved.1) (strict_of_arguments rest resolved.2)
end

end Strictness

namespace ParseRun

variable {α : Type} [Scalar α] {config : TimedConfig} {b : Option (Bindings α)}
  {tokens : List Token} {final : Token} {e : Expr α}

theorem strict_reads_iff (live : config.InTime) (inner : ∀ tok ∈ tokens, tok.kind ≠ .eof)
    (last : final.kind = .eof) :
    ((ofTokens config b true tokens final).tree = .ok e ∧
        (ofTokens config b true tokens final).errors = []) ↔
      ((ofTokens config b false tokens final).tree = .ok e ∧
        (ofTokens config b false tokens final).errors = []) ∧ e.EveryNode Resolved := by
  rw [reads_iff_phrase live inner last, reads_iff_phrase live inner last]
  constructor
  · rintro ⟨d, phrase, fits⟩
    obtain ⟨loose, resolved⟩ := phrase_of_strict phrase
    exact ⟨⟨d, loose, fits⟩, resolved⟩
  · rintro ⟨⟨d, phrase, fits⟩, resolved⟩
    exact ⟨d, strict_of_phrase phrase resolved, fits⟩

end ParseRun

namespace Source

variable {α : Type} [Scalar α] [NumberText α] {source : String} {config : TimedConfig}

/-- Where a source has a tree without bindings, it has one in time with them exactly when no bound
name is called in it. The values are the same, and so are the draws. -/
theorem parse_bound (live : config.InTime) {t : Expr Float} {s : Engine}
    (h : (parse source none config s).1 = .ok t) (b : Option (Bindings Float)) (s' : Engine) :
    ((∃ t', (parse source b config s').1 = .ok t') ↔ Uncalled b (Token.lexemes source)) ∧
      ∀ t', (parse source b config s').1 = .ok t' → ∀ stream : RandomStream,
        t'.evaluate b stream = t.evaluate b stream := by
  have accepted := refusal?_of_parse h
  obtain ⟨d, phrase, fits⟩ := phrase_of_parse h
  have uncalled : ∀ t', (parse source b config s').1 = .ok t' →
      Uncalled b (Token.lexemes source) := by
    intro t' read
    obtain ⟨d', phrase', -⟩ := phrase_of_parse read
    exact uncalled_of_phrase phrase'
  have bound : Uncalled b (Token.lexemes source) → ∃ t', (parse source b config s').1 = .ok t' ∧
      ∀ stream : RandomStream, t'.evaluate b stream = t.evaluate b stream := by
    intro free
    obtain ⟨t', phrase', same⟩ := phrase_of_uncalled phrase free
    exact ⟨t', (parse_ok_iff_phrase live accepted s').2 ⟨d, phrase', fits⟩, same⟩
  refine ⟨⟨fun ⟨t', read⟩ => uncalled t' read, fun free => ?_⟩, fun t' read => ?_⟩
  · obtain ⟨t', read, -⟩ := bound free
    exact ⟨t', read⟩
  · obtain ⟨t'', read', same⟩ := bound (uncalled t' read)
    obtain rfl : t' = t'' := Except.ok.inj (read.symm.trans read')
    exact same

theorem parse_bound_root :
    let t : Expr Float := .bin .add (.call "SQRT" [.var "X"]) (.var "MAX")
    let b : Bindings Float := .ofPairs [("X", -4), ("MAX", 2)]
    (({} : TimedConfig).InTime ∧ (parse "SQRT(x) + MAX" none {} .start).1 = .ok t) ∧
      ∃ t', (parse "SQRT(x) + MAX" (some b) {} .start).1 = .ok t' ∧
        ∀ stream : RandomStream, t'.evaluate (some b) stream = t.evaluate (some b) stream := by
  intro t b
  have read : (parse "SQRT(x) + MAX" none {} .start).1 = .ok t := by with_unfolding_all rfl
  have tokens : Token.lexemes "SQRT(x) + MAX" =
      [⟨.ident, "SQRT", 0, 4⟩, ⟨.leftParen, "(", 4, 5⟩, ⟨.ident, "x", 5, 6⟩,
        ⟨.rightParen, ")", 6, 7⟩, ⟨.plus, "+", 8, 9⟩, ⟨.ident, "MAX", 10, 13⟩] := by
    decide +kernel
  have unbound : ¬ (⟨.ident, "SQRT", 0, 4⟩ : Token).Bound (some b) := by
    rintro ⟨-, -, c, mem, contained⟩
    obtain rfl : b = c := Option.mem_some_iff.1 mem
    exact absurd contained (by decide +kernel)
  have free : Uncalled (some b) (Token.lexemes "SQRT(x) + MAX") := by
    rw [tokens, uncalled_call rfl]
    exact ⟨unbound, by simp [Uncalled]⟩
  have live : ({} : TimedConfig).InTime := TimedConfig.inTime_of_untimed (by decide)
  obtain ⟨accepts, same⟩ := parse_bound live read (some b) .start
  obtain ⟨t', read'⟩ := accepts.2 free
  exact ⟨⟨live, read⟩, t', read', same t' read'⟩

/-- In time, a source of numbers that have a value has one under strict names exactly when its tree
needs no names, and then it has this tree. -/
theorem parseValue_strict (live : config.InTime) {b : Option (Bindings α)}
    (readable : ∀ tok ∈ Token.lexemes source, tok.kind = .number →
      (tok.numberValue? : Option α).isSome = true) (s s' : Engine) :
    ∃ r, (parseValue (some source) b config false s).1 = .ok r ∧
      (r.hasError = false ↔
        ∃ t, (parse source b config s').1 = .ok t ∧ t.EveryNode Resolved) ∧
      ∀ t, (parse source b config s').1 = .ok t → t.EveryNode Resolved → r.tree = some t := by
  obtain ⟨r, answered, answer⟩ | ⟨-, tok, mem, number, large⟩ :=
    parseValue_answers (some source) b config false s
  swap
  · have value := readable tok mem number
    simp [large] at value
  refine ⟨r, answered, ?_⟩
  unfold Answers at answer
  cases refused : refusal? (some source) config with
  | some e =>
    have unread : ∀ t, (parse source b config s').1 ≠ .ok t := by
      intro t read
      rw [refusal?_of_parse read] at refused
      simp at refused
    rw [refused] at answer
    subst answer
    exact ⟨iff_of_false Bool.noConfusion fun ⟨t, read, _⟩ => unread t read,
      fun t read => absurd read (unread t)⟩
  | none =>
    let run := ParseRun.ofTokens config b true (Token.lexemes source) (Token.endAt source.length)
    have strict : ∀ t, (run.tree = .ok t ∧ run.errors = []) ↔
        (parse source b config s').1 = .ok t ∧ t.EveryNode Resolved := by
      intro t
      rw [parse_ok_iff refused, exists_eq_left]
      exact ParseRun.strict_reads_iff live (fun tok mem => Token.kind_of_mem_ofChars mem) rfl
    rw [refused] at answer
    have answer : (run.errors = [] ∧ ∃ t stream, run.tree = .ok t ∧
          r = .success (t.evaluate b stream).1 t) ∨
        ∃ e es, run.errors = e :: es ∧
          r = .failure run.tree.toOption e.info (es.map ParseError.info) := answer
    rcases answer with ⟨clean, t, stream, tree, rfl⟩ | ⟨e, es, errors, rfl⟩
    · have read := (strict t).1 ⟨tree, clean⟩
      refine ⟨iff_of_true rfl ⟨t, read⟩, fun t' read' resolved => ?_⟩
      obtain rfl : t = t' := Except.ok.inj (read.1.symm.trans read')
      rfl
    · have unread : ∀ t, (parse source b config s').1 = .ok t → ¬ t.EveryNode Resolved := by
        intro t read resolved
        have clean := ((strict t).2 ⟨read, resolved⟩).2
        simp [errors] at clean
      exact ⟨iff_of_false Bool.noConfusion fun ⟨t, read, resolved⟩ => unread t read resolved,
        fun t read resolved => absurd resolved (unread t read)⟩

set_option maxRecDepth 2000 in
theorem parseValue_strict_root :
    let t : Expr Float := .call "MAX" [.num 1, .num 0]
    (({} : TimedConfig).InTime ∧
        ∀ tok ∈ Token.lexemes "MAX(1, SQRT(-4))", tok.kind = .number →
          (tok.numberValue? : Option Float).isSome = true) ∧
      ∃ r, (parseValue (some "MAX(1, SQRT(-4))") none {} false .start).1 = .ok r ∧
        r.hasError = false ∧ r.tree = some t := by
  intro t
  have readable : ∀ tok ∈ Token.lexemes "MAX(1, SQRT(-4))", tok.kind = .number →
      (tok.numberValue? : Option Float).isSome = true := by decide +kernel
  have read : (parse "MAX(1, SQRT(-4))" none {} .start).1 = .ok t := by
    with_unfolding_all rfl
  have resolved : t.EveryNode Resolved :=
    ⟨⟨.binary .max, by decide +kernel, rfl⟩, trivial, trivial, trivial⟩
  have live : ({} : TimedConfig).InTime := TimedConfig.inTime_of_untimed (by decide)
  obtain ⟨r, answered, clean, tree⟩ := parseValue_strict live readable .start .start
  exact ⟨⟨live, readable⟩, r, answered, clean.2 ⟨t, read, resolved⟩, tree t read resolved⟩

end Source

end DerivativeEngine
