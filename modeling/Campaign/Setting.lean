/-!
# Settings

The four parameters that configure an experiment, and one thing for each of them.
-/

namespace Campaign

/-- A parameter of an experiment. -/
inductive Parameter where
  | interval
  | ratio
  | unit
  | size
deriving DecidableEq, Repr

namespace Parameter

/-- All parameters, in key order. -/
def all : List Parameter :=
  [interval, ratio, unit, size]

/-- The name of a parameter's column. -/
def columnName : Parameter → String
  | interval => "traffic_interval"
  | ratio => "receive_ratio"
  | unit => "unit_size"
  | size => "data_size"

/-- The place of a parameter in key order, counted from 0. -/
def index : Parameter → Nat
  | interval => 0
  | ratio => 1
  | unit => 2
  | size => 3

end Parameter

/-- One thing for each parameter. -/
structure Setting (α : Type) where
  interval : α
  ratio : α
  unit : α
  size : α
deriving DecidableEq, Repr

namespace Setting

variable {α β : Type}

/-- The thing for one parameter. -/
def get (s : Setting α) : Parameter → α
  | .interval => s.interval
  | .ratio => s.ratio
  | .unit => s.unit
  | .size => s.size

/-- The setting that holds `f p` for each parameter `p`. -/
def ofFn (f : Parameter → α) : Setting α :=
  ⟨f .interval, f .ratio, f .unit, f .size⟩

@[simp] theorem get_ofFn (f : Parameter → α) (p : Parameter) : (ofFn f).get p = f p := by
  cases p <;> rfl

@[simp] theorem ofFn_get (s : Setting α) : ofFn s.get = s := rfl

/-- `s` with `a` in place of the thing for one parameter. -/
def set (s : Setting α) (p : Parameter) (a : α) : Setting α :=
  ofFn fun q => if q = p then a else s.get q

@[simp] theorem get_set (s : Setting α) (p q : Parameter) (a : α) :
    (s.set p a).get q = if q = p then a else s.get q := by
  simp [set]

/-- The things in key order. -/
def toList (s : Setting α) : List α :=
  Parameter.all.map s.get

/-- The setting of four things in key order. -/
def ofList? : List α → Option (Setting α)
  | [a, b, c, d] => some ⟨a, b, c, d⟩
  | _ => none

theorem ofList?_toList (s : Setting α) : ofList? s.toList = some s := rfl

def map (f : α → β) (s : Setting α) : Setting β :=
  ofFn fun p => f (s.get p)

/-- Applies `f` to each thing in key order; the first failure is the answer. -/
def mapM? {ε : Type} (f : Parameter → α → Except ε β) (s : Setting α) : Except ε (Setting β) := do
  let interval ← f .interval s.interval
  let ratio ← f .ratio s.ratio
  let unit ← f .unit s.unit
  let size ← f .size s.size
  return ⟨interval, ratio, unit, size⟩

theorem ext_get {s t : Setting α} (h : ∀ p, s.get p = t.get p) : s = t := by
  rw [← ofFn_get s, ← ofFn_get t, funext h]

end Setting
end Campaign
