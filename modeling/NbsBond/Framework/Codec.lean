import Mathlib

/-!
# Partial codecs

A codec writes values of `α` as wire values of `V` and reads them back. Both directions are partial:
a value may not fit the wire type, and a wire value may be of another type. The law is that what was
written is read back; `Codec.mapM_roundtrip` lifts it to lists.

`Codec.nil` and `Codec.cons` write a sequence of values of different types, and `Codec.comap` takes
a codec along a pair of functions, such as a record and the sequence of its fields.
-/

/-- A pair of partial functions, the second of which undoes the first. Nothing is said of wire
values that are not the encoding of anything. -/
structure Codec (V α : Type) where
  encode : α → Option V
  decode : V → Option α
  roundtrip : ∀ {a : α} {v : V}, encode a = some v → decode v = some a

namespace Codec

variable {V α : Type}

/-- A list is written and read entry by entry. Also one value that does not fit makes the list
fail. -/
theorem mapM_roundtrip (c : Codec V α) {l : List α} {vs : List V}
    (h : l.mapM c.encode = some vs) : vs.mapM c.decode = some l := by
  -- On the list: its head is read back by the law of the codec, the tail by induction.
  induction l generalizing vs with
  | nil =>
    cases h
    rfl
  | cons a l ih =>
    simp only [List.mapM_cons, Option.bind_eq_bind, Option.bind_eq_some_iff, Option.pure_def,
      Option.some.injEq] at h
    obtain ⟨v, hv, vs, hvs, rfl⟩ := h
    rw [List.mapM_cons, c.roundtrip hv, ih hvs]
    rfl

/-- Nothing, as an empty list. -/
def nil : Codec (List V) Unit where
  encode _ := some []
  decode
    | [] => some ()
    | _ :: _ => none
  roundtrip h := by
    cases h
    rfl

/-- A value, and those of the rest of the list. Reading takes the list apart from the front and
fails on the first value that does not fit. -/
def cons {β : Type} (c : Codec V α) (d : Codec (List V) β) : Codec (List V) (α × β) where
  encode x := (c.encode x.1).bind fun v => (d.encode x.2).map (v :: ·)
  decode
    | [] => none
    | v :: vs => (c.decode v).bind fun a => (d.decode vs).map (a, ·)
  roundtrip {x vs} h := by
    obtain ⟨v, hv, h⟩ := Option.bind_eq_some_iff.mp h
    obtain ⟨vs, hvs, rfl⟩ := Option.map_eq_some_iff.mp h
    dsimp only
    rw [c.roundtrip hv, d.roundtrip hvs]
    rfl

/-- A codec for `β` writes every type that `β` represents. The law of `f` and `g` is needed in one
direction only. -/
def comap {β : Type} (c : Codec V β) (f : α → β) (g : β → α) (h : ∀ a, g (f a) = a) :
    Codec V α where
  encode a := c.encode (f a)
  decode v := (c.decode v).map g
  roundtrip {a v} hv := by
    rw [c.roundtrip hv, Option.map_some, h]

end Codec
