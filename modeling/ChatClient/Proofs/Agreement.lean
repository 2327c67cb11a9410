import ChatClient.Decode
import Mathlib.Data.List.Forall2
import Mathlib.Logic.Relator

/-!
# Decodings that agree

Two values are decoded, and it does not matter which: both decodings fail, with the same
problems, or both give a value, and the values are related. A decoder puts its fields and
items together in such a way that where all of them agree, the whole does too. So two
records that differ in one field are compared by that field alone.
-/

namespace ChatClient.Decoded

variable {α β γ δ : Type} {r : α → β → Prop} {s : γ → δ → Prop}

/-- Two decodings agree: both fail, with the same problems, or both give values, and these
are related. -/
inductive Agree (r : α → β → Prop) :
    Except (List Problem) α → Except (List Problem) β → Prop
  | failed (problems : List Problem) : Agree r (.error problems) (.error problems)
  | decoded {a : α} {b : β} (related : r a b) : Agree r (.ok a) (.ok b)

namespace Agree

/-- A decoding agrees with itself. -/
theorem refl {r : α → α → Prop} (hr : ∀ a, r a a) (outcome : Except (List Problem) α) :
    Agree r outcome outcome := by
  cases outcome with
  | error problems => exact .failed problems
  | ok a => exact .decoded (hr a)

/-- Decodings that agree also agree in a weaker sense. -/
theorem mono {s : α → β → Prop} (hrs : ∀ a b, r a b → s a b) {x : Except (List Problem) α}
    {y : Except (List Problem) β} (hx : Agree r x y) : Agree s x y := by
  cases hx with
  | failed problems => exact .failed problems
  | decoded related => exact .decoded (hrs _ _ related)

/-- A function of a decoding agrees with the decoding, if it is related to what it is
applied to. -/
theorem map_self_iff {r : β → α → Prop} {f : α → β} {x : Except (List Problem) α} :
    Agree r (x.map f) x ↔ ∀ a, x = .ok a → r (f a) a := by
  cases x with
  | error problems => exact iff_of_true (.failed problems) nofun
  | ok a =>
    refine ⟨fun hagree => ?_, fun hrelated => .decoded (hrelated a rfl)⟩
    rintro _ ⟨⟩
    cases hagree with
    | decoded related => exact related

/-- Functions of what was decoded agree, if they are related on related values. -/
theorem map {x : Decoded α} {y : Decoded β} {f : α → γ} {g : β → δ}
    (hx : Agree r x.outcome y.outcome) (hfg : Relator.LiftFun r s f g) :
    Agree s (f <$> x).outcome (g <$> y).outcome := by
  change Agree s (x.outcome.map f) (y.outcome.map g)
  generalize x.outcome = xs, y.outcome = ys at hx ⊢
  cases hx with
  | failed problems => exact .failed problems
  | decoded related => exact .decoded (hfg related)

/-- With a further field that agrees, all fields agree. -/
theorem seq {f : Decoded (α → γ)} {g : Decoded (β → δ)} {x : Decoded α} {y : Decoded β}
    (hfg : Agree (Relator.LiftFun r s) f.outcome g.outcome)
    (hx : Agree r x.outcome y.outcome) : Agree s (f <*> x).outcome (g <*> y).outcome := by
  obtain ⟨_, f⟩ := f
  obtain ⟨_, g⟩ := g
  obtain ⟨_, x⟩ := x
  obtain ⟨_, y⟩ := y
  cases hfg with
  | failed first =>
    cases hx with
    | failed second => exact .failed (first ++ second)
    | decoded _ => exact .failed first
  | decoded hrelated =>
    cases hx with
    | failed second => exact .failed second
    | decoded related => exact .decoded (hrelated related)

/-- What agrees at a place agrees one step further inside. -/
theorem under {x : Decoded α} {y : Decoded β} (step : Step)
    (hx : Agree r x.outcome y.outcome) : Agree r (x.under step).outcome (y.under step).outcome := by
  rw [Decoded.under, Decoded.under]
  generalize x.outcome = xs, y.outcome = ys at hx ⊢
  cases hx with
  | failed problems => exact .failed _
  | decoded related => exact .decoded related

variable {decode : Decoder α} {decode' : Decoder β} {values values' : List Json}

/-- Items that agree one by one agree together. -/
theorem itemsFrom (start : Nat)
    (hitems : List.Forall₂ (fun v w => Agree r (decode v).outcome (decode' w).outcome)
      values values') :
    Agree (List.Forall₂ r) (Decoder.itemsFrom decode start values).outcome
      (Decoder.itemsFrom decode' start values').outcome := by
  induction hitems generalizing start with
  | nil => exact .decoded .nil
  | cons hitem _ ih =>
    refine seq (map (under (.index start) hitem) ?_) (ih (start + 1))
    exact fun a b hab as bs hrest => .cons hab hrest

/-- Lists agree, if their items agree one by one. -/
theorem list
    (hitems : List.Forall₂ (fun v w => Agree r (decode v).outcome (decode' w).outcome)
      values values') :
    Agree (List.Forall₂ r) (Decoder.list decode (.arr values)).outcome
      (Decoder.list decode' (.arr values')).outcome :=
  itemsFrom 0 hitems

end Agree

end ChatClient.Decoded
