import DerivativeEngine.Arena.Basic
import DerivativeEngine.Engine

/-!
Arena operations that tell the engine when the arena grew or gave memory back. Destroying an
arena is silent.
-/

namespace DerivativeEngine.Arena

def tell (text? : Option String) : Run Unit :=
  match text? with
  | some text => Run.record .arena .debug text
  | none => return ()

def allocTold (a : Arena) (n : Int) : Run (Option Block × Arena) := do
  let r := a.alloc n
  tell (growthText? a r.2)
  return r

def callocTold (a : Arena) (count size : Int) : Run (Option Block × Arena) := do
  let r := a.calloc count size
  tell (growthText? a r.2)
  return r

def resetAggressiveTold (a : Arena) : Run Arena := do
  let b := a.resetAggressive
  tell (releaseText? a b)
  return b

end DerivativeEngine.Arena
