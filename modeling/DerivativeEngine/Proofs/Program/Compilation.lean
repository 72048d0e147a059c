import DerivativeEngine.Expr.Evaluation
import DerivativeEngine.Program.Compile
import DerivativeEngine.Program.Machine
import DerivativeEngine.Proofs.Expr.Nodes
import DerivativeEngine.Scalar.Double

/-! A compiled expression runs to the value of the expression. The machine yields zeros where its
stack is empty, so it cannot tell by itself whether a program was short of operands; the checked
machine beside it stops instead. What the checked machine does, the machine does, and a compiled
expression runs on the checked one: with any stack below it and any program after it, it pushes
one entry and leaves the random stream where evaluation leaves it. -/

namespace DerivativeEngine

namespace Machine

variable {α : Type}

def pop? : List α → Option (α × List α)
  | [] => none
  | x :: xs => some (x, xs)

def popMany? : Nat → List α → List α → Option (List α × List α)
  | 0, taken, stack => some (taken, stack)
  | n + 1, taken, stack => do
    let (x, stack) ← pop? stack
    popMany? n (x :: taken) stack

theorem popMany?_append (xs taken stack : List α) :
    popMany? xs.length taken (xs ++ stack) = some (xs.reverse ++ taken, stack) := by
  induction xs generalizing taken with
  | nil => rfl
  | cons x xs ih =>
    rw [List.reverse_cons, List.append_assoc]
    exact ih (x :: taken)

variable [Scalar α]

theorem pop_of_pop? {stack : List α} {r : α × List α} (h : pop? stack = some r) :
    pop stack = r := by
  cases stack with
  | nil => simp [pop?] at h
  | cons x xs => simpa [pop?, pop] using h

theorem popMany_of_popMany? {n : Nat} {taken stack : List α} {r : List α × List α}
    (h : popMany? n taken stack = some r) : popMany n taken stack = r := by
  induction n generalizing taken stack with
  | zero => simpa [popMany?, popMany] using h
  | succ n ih =>
    cases stack with
    | nil => simp [popMany?, pop?] at h
    | cons x xs => exact ih h

def step? (b : Option (Bindings α)) (inst : Instruction α) (m : Machine α) :
    Option (Machine α) :=
  match inst with
  | .const x => some { m with stack := x :: m.stack }
  | .load slot name => some { m with stack := load b slot name :: m.stack }
  | .binary op => do
    let (right, rest) ← pop? m.stack
    let (left, rest) ← pop? rest
    return { m with stack := op.apply left right :: rest }
  | .unary op => do
    let (x, rest) ← pop? m.stack
    return { m with stack := op.apply x :: rest }
  | .call name argc => do
    let (args, rest) ← popMany? argc.toNat [] m.stack
    let (x, stream) := callFunction name args m.stream
    return ⟨x :: rest, stream⟩
  | .halt => some m

def run? (b : Option (Bindings α)) : Program α → Machine α → Option (Machine α)
  | [], m => some m
  | .halt :: _, m => some m
  | inst :: rest, m => do run? b rest (← step? b inst m)

theorem step_of_step? {b : Option (Bindings α)} {inst : Instruction α} {m m' : Machine α}
    (h : step? b inst m = some m') : step b inst m = m' := by
  cases inst with
  | const | load | halt => simpa [step?, step] using h
  | binary op =>
    simp only [step?, bind, Option.bind_eq_some_iff] at h
    obtain ⟨⟨right, rest⟩, hr, ⟨left, rest'⟩, hl, hm⟩ := h
    simp only [step, pop_of_pop? hr, pop_of_pop? hl]
    simpa using hm
  | unary op =>
    simp only [step?, bind, Option.bind_eq_some_iff] at h
    obtain ⟨⟨x, rest⟩, hx, hm⟩ := h
    simp only [step, pop_of_pop? hx]
    simpa using hm
  | call name argc =>
    simp only [step?, bind, Option.bind_eq_some_iff] at h
    obtain ⟨⟨args, rest⟩, ha, hm⟩ := h
    simp only [step, popMany_of_popMany? ha]
    simpa using hm

theorem run_cons {b : Option (Bindings α)} {inst : Instruction α} (rest : Program α)
    (m : Machine α) (h : inst ≠ .halt) : run b (inst :: rest) m = run b rest (step b inst m) :=
  run.eq_3 b m inst rest h

theorem run?_cons {b : Option (Bindings α)} {inst : Instruction α} (rest : Program α)
    (m : Machine α) (h : inst ≠ .halt) :
    run? b (inst :: rest) m = (step? b inst m).bind (run? b rest) :=
  run?.eq_3 b m inst rest h

theorem run_of_run? {b : Option (Bindings α)} {p : Program α} {m m' : Machine α}
    (h : run? b p m = some m') : run b p m = m' := by
  induction p generalizing m with
  | nil => simpa [run?, run] using h
  | cons inst rest ih =>
    by_cases halts : inst = .halt
    · subst halts
      simpa [run?, run] using h
    · rw [run?_cons rest m halts, Option.bind_eq_some_iff] at h
      obtain ⟨m₁, hs, hr⟩ := h
      rw [run_cons rest m halts, step_of_step? hs]
      exact ih hr

end Machine

namespace Expr

variable {α : Type} [Scalar α]

theorem load_letterSlot (b : Option (Bindings α)) {name : String}
    (canonical : canonicalName name = name) :
    Machine.load b (letterSlot name) name = valueOf b name := by
  rcases b with _ | ⟨values, names⟩
  · rfl
  · cases names with
    | some names => rfl
    | none =>
      have lookup : (⟨values, none⟩ : Bindings α).lookup? name =
          (Bindings.letterIndex? name).bind fun i => values[i]? := by
        simp only [Bindings.lookup?, Bindings.index?, Bindings.position?, canonical]
        rcases Bindings.letterIndex? name with _ | i
        · rfl
        · by_cases inside : i < values.length <;> simp [inside]
      cases slot : Bindings.letterIndex? name with
      | none => simp [Machine.load, valueOf, letterSlot, lookup, slot]
      | some i =>
        have nonneg : ¬ (i : Int) < 0 := by omega
        simp [Machine.load, valueOf, letterSlot, lookup, slot, Bindings.valueAt, nonneg]

theorem evaluateAll_length (b : Option (Bindings α)) (es : List (Expr α)) (s : RandomStream) :
    (evaluateAll b es s).1.length = es.length := by
  induction es generalizing s with
  | nil => rfl
  | cons e es ih => simp [evaluateAll, ih]

/-- On every stack and before every program, a piece of code that pushes these values, the last
one on top, and then goes on with this stream. -/
def Pushes (b : Option (Bindings α)) (p : Program α) (s : RandomStream)
    (r : List α × RandomStream) : Prop :=
  ∀ (rest : Program α) (stack : List α),
    Machine.run? b (p ++ rest) ⟨stack, s⟩ = Machine.run? b rest ⟨r.1.reverse ++ stack, r.2⟩

theorem Pushes.append {b : Option (Bindings α)} {p q : Program α} {s s₁ s₂ : RandomStream}
    {xs ys : List α} (hp : Pushes b p s (xs, s₁)) (hq : Pushes b q s₁ (ys, s₂)) :
    Pushes b (p ++ q) s (xs ++ ys, s₂) := by
  intro rest stack
  rw [List.append_assoc, hp, hq, List.reverse_append, List.append_assoc]

theorem Pushes.binary {b : Option (Bindings α)} {p : Program α} {s s₁ : RandomStream} {x y : α}
    (op : BinaryOp) (h : Pushes b p s ([x, y], s₁)) :
    Pushes b (p ++ [.binary op]) s ([op.apply x y], s₁) := by
  intro rest stack
  rw [List.append_assoc, h]
  rfl

theorem Pushes.unary {b : Option (Bindings α)} {p : Program α} {s s₁ : RandomStream} {x : α}
    (op : UnaryOp) (h : Pushes b p s ([x], s₁)) :
    Pushes b (p ++ [.unary op]) s ([op.apply x], s₁) := by
  intro rest stack
  rw [List.append_assoc, h]
  rfl

theorem Pushes.call {b : Option (Bindings α)} {p : Program α} {s s₁ : RandomStream}
    {xs : List α} (name : String) {argc : Nat} (count : xs.length = argc)
    (h : Pushes b p s (xs, s₁)) :
    Pushes b (p ++ [.call name argc]) s
      ([(callFunction name xs s₁).1], (callFunction name xs s₁).2) := by
  intro rest stack
  have taken := Machine.popMany?_append xs.reverse [] stack
  rw [List.length_reverse, count, List.reverse_reverse, List.append_nil] at taken
  rw [List.append_assoc, h]
  simp only [List.singleton_append]
  rw [Machine.run?_cons _ _ (by simp)]
  simp [Machine.step?, taken]

mutual
theorem code_pushes (b : Option (Bindings α)) :
    ∀ e : Expr α, e.EveryNode OperatorKnown → e.EveryNode NameCanonical →
      ∃ p, e.code = .ok p ∧
        ∀ s, Pushes b p s ([(e.evaluate b s).1], (e.evaluate b s).2)
  | num x, _, _ => ⟨_, rfl, fun _ _ _ => rfl⟩
  | var name, _, canonical => by
    refine ⟨_, rfl, fun s rest stack => ?_⟩
    simp only [List.singleton_append]
    rw [Machine.run?_cons _ _ (by simp)]
    simp [Machine.step?, load_letterSlot b canonical, evaluate]
  | bin op l r, known, canonical => by
    obtain ⟨p, hp, runs⟩ := code_pushes b l known.2.1 canonical.2.1
    obtain ⟨q, hq, runsRight⟩ := code_pushes b r known.2.2 canonical.2.2
    have opcode : (binaryCode op : Except NoOpcode (Instruction α)) = .ok (.binary op) := by
      cases op with
      | unknown => exact known.1.elim
      | _ => rfl
    refine ⟨p ++ q ++ [.binary op], ?_, fun s => ?_⟩
    · simp only [code, hp, hq, opcode]
      rfl
    · exact ((runs s).append (runsRight _)).binary op
  | un op e, known, canonical => by
    obtain ⟨p, hp, runs⟩ := code_pushes b e known.2 canonical.2
    have opcode : (unaryCode op : Except NoOpcode (Instruction α)) = .ok (.unary op) := by
      cases op with
      | unknown => exact known.1.elim
      | _ => rfl
    refine ⟨p ++ [.unary op], ?_, fun s => (runs s).unary op⟩
    simp only [code, hp, opcode]
    rfl
  | call name args, known, canonical => by
    obtain ⟨p, hp, runs⟩ := codeAll_pushes b args known.2 canonical.2
    refine ⟨p ++ [.call name args.length], ?_, fun s => ?_⟩
    · simp only [code, hp]
      rfl
    · exact (runs s).call name (evaluateAll_length b args s)
  | tensor t, _, _ => ⟨_, rfl, fun _ _ _ => rfl⟩
theorem codeAll_pushes (b : Option (Bindings α)) :
    ∀ es : List (Expr α), EveryNodes OperatorKnown es → EveryNodes NameCanonical es →
      ∃ p, codeAll es = .ok p ∧ ∀ s, Pushes b p s (evaluateAll b es s)
  | [], _, _ => ⟨[], rfl, fun _ _ _ => rfl⟩
  | e :: es, known, canonical => by
    obtain ⟨p, hp, runs⟩ := code_pushes b e known.1 canonical.1
    obtain ⟨q, hq, runsRest⟩ := codeAll_pushes b es known.2 canonical.2
    refine ⟨p ++ q, ?_, fun s => ?_⟩
    · simp only [codeAll, hp, hq]
      rfl
    · exact (runs s).append (runsRest _)
end

/-- Compilation never fails on operators with a meaning. The program never takes from an empty
stack, ends with one entry, and has the value and the random stream of evaluation. -/
theorem execute_compile (e : Expr α) (known : e.EveryNode OperatorKnown)
    (canonical : e.EveryNode NameCanonical) (b : Option (Bindings α)) (s : RandomStream) :
    ∃ p, e.compile = .ok p ∧
      p.execute b s = e.evaluate b s ∧
      Machine.run? b p ⟨[], s⟩ = some (Machine.run b p ⟨[], s⟩) ∧
      Machine.run b p ⟨[], s⟩ = ⟨[(e.evaluate b s).1], (e.evaluate b s).2⟩ := by
  obtain ⟨p, hp, runs⟩ := code_pushes b e known canonical
  have checked := runs s [.halt] []
  have machine := Machine.run_of_run? checked
  refine ⟨p ++ [.halt], ?_, ?_, ?_, machine⟩
  · simp only [compile, hp]
    rfl
  · rw [Program.execute, machine]
    rfl
  · rw [checked, machine]
    rfl

theorem execute_compile_difference :
    let e : Expr Float := bin .sub (call "ATAN2" [var "X", un .neg (num 2.0)]) (call "RANDOM" [])
    let p : Program Float := [.load 23 "X", .const 2.0, .unary .neg, .call "ATAN2" 2,
      .call "RANDOM" 0, .binary .sub, .halt]
    let b : Bindings Float := Bindings.letters
    let s : RandomStream := .ofSeed 7
    e.EveryNode OperatorKnown ∧ e.EveryNode NameCanonical ∧ e.compile = .ok p ∧
      p.execute (some b) s = e.evaluate (some b) s ∧
      Machine.run? (some b) p ⟨[], s⟩ =
        some ⟨[(e.evaluate (some b) s).1], (e.evaluate (some b) s).2⟩ := by
  intro e p b s
  have known : e.EveryNode OperatorKnown := by
    simp [e, EveryNode, EveryNodes, OperatorKnown]
  have canonical : e.EveryNode NameCanonical := by
    simp [e, EveryNode, EveryNodes, NameCanonical, canonicalName_x]
  have code : e.compile = .ok p := rfl
  obtain ⟨q, hq, value, checked, machine⟩ := execute_compile e known canonical (some b) s
  obtain rfl : p = q := Except.ok.inj (code.symm.trans hq)
  exact ⟨known, canonical, code, value, checked.trans (congrArg some machine)⟩

end Expr

end DerivativeEngine
