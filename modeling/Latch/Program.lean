/-!
# Programs

A `Program` is a computation written down as the questions that it asks its surroundings and what it
does with each answer. Because it is a value, one definition can be run without interruption, run
with failing answers, or taken one question at a time beside other programs.

* `Program.run` — answers every question with a handler that may change a state;
* `Program.expand` — replaces every question by a program over smaller questions.
-/

namespace Latch

inductive Program {Ask : Type} (Reply : Ask → Type) (α : Type) : Type where
  | done (result : α)
  | ask (question : Ask) (next : Reply question → Program Reply α)

namespace Program

variable {Ask Ask₂ : Type} {Reply : Ask → Type} {Reply₂ : Ask₂ → Type} {α β σ : Type}

def bind : Program Reply α → (α → Program Reply β) → Program Reply β
  | done result, f => f result
  | ask question next, f => ask question fun reply => (next reply).bind f

instance : Monad (Program Reply) where
  pure := done
  bind := bind

/-- Asks one question and returns its answer. -/
def single (question : Ask) : Program Reply (Reply question) := ask question done

def run (handle : (question : Ask) → σ → Reply question × σ) : Program Reply α → σ → α × σ
  | done result, s => (result, s)
  | ask question next, s =>
    let (reply, s) := handle question s
    (next reply).run handle s

def expand (script : (question : Ask) → Program Reply₂ (Reply question)) :
    Program Reply α → Program Reply₂ α
  | done result => done result
  | ask question next => (script question).bind fun reply => (next reply).expand script

/-! ## Basic equations -/

theorem bind_done (p : Program Reply α) : p.bind done = p := by
  induction p with
  | done result => rfl
  | ask question next ih => simp only [bind, ih]

theorem bind_assoc {γ : Type} (p : Program Reply α) (f : α → Program Reply β)
    (g : β → Program Reply γ) : (p.bind f).bind g = p.bind fun a => (f a).bind g := by
  induction p with
  | done result => rfl
  | ask question next ih => simp only [bind, ih]

instance : LawfulMonad (Program Reply) :=
  LawfulMonad.mk' (Program Reply) bind_done (fun _ _ => rfl) bind_assoc

theorem run_bind (handle : (question : Ask) → σ → Reply question × σ) (p : Program Reply α)
    (f : α → Program Reply β) (s : σ) :
    (p.bind f).run handle s = (f (p.run handle s).1).run handle (p.run handle s).2 := by
  induction p generalizing s with
  | done result => rfl
  | ask question next ih => simp only [bind, run, ih]

theorem expand_bind (script : (question : Ask) → Program Reply₂ (Reply question))
    (p : Program Reply α) (f : α → Program Reply β) :
    (p.bind f).expand script = (p.expand script).bind fun a => (f a).expand script := by
  induction p with
  | done result => rfl
  | ask question next ih => simp only [bind, expand, bind_assoc, ih]

/-- Running an expanded program is running the program with the scripts' runs as answers. -/
theorem run_expand (script : (question : Ask) → Program Reply₂ (Reply question))
    (handle : (question : Ask₂) → σ → Reply₂ question × σ) (p : Program Reply α) (s : σ) :
    (p.expand script).run handle s = p.run (fun question s => (script question).run handle s) s := by
  induction p generalizing s with
  | done result => rfl
  | ask question next ih => simp only [expand, run, run_bind, ih]

end Program

end Latch
