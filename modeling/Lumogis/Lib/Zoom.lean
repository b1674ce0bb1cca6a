import Lumogis.Lib.Prog

/-!
# Lib.Zoom

A program on one part of a larger state.

A `Lens` says where the part lies; `zoom l p` runs `p` on it and leaves the rest alone.
-/

/-- A part of a state, with the laws of reading and writing it. -/
structure Lens (T S : Type) where
  get : T → S
  put : S → T → T
  get_put : ∀ s t, get (put s t) = s
  put_put : ∀ s s' t, put s (put s' t) = put s t
  put_get : ∀ t, put (get t) t = t

namespace Prog

variable {T S E α β : Type} {l : Lens T S}

/-- The program on the part. -/
def zoom (l : Lens T S) : Prog S E α → Prog T E α
  | .ret a => .ret a
  | .raise e => .raise e
  | .call g u k h =>
    .call (fun t => g (l.get t)) (fun t => l.put (u (l.get t)) t) (fun t => (k (l.get t)).zoom l)
      (h.zoom l)

theorem exec_zoom (p : Prog S E α) (t : T) :
    (p.zoom l).exec t = (p.exec (l.get t)).map fun x => (x.1, l.put x.2 t) := by
  induction p generalizing t with
  | ret a => simp [zoom, l.put_get]
  | raise e => simp [zoom, l.put_get]
  | call g u k h ih _ =>
    simp only [zoom, exec]
    split
    · rw [ih (l.get t), l.get_put]
      congr 1
      funext x
      rw [l.put_put]
    · rfl

theorem wp_zoom {Q : Except E α → T → Prop} {p : Prog S E α} {t : T} :
    wp Q (p.zoom l) t ↔ wp (fun r s => Q r (l.put s t)) p (l.get t) := by
  rw [wp_iff, wp_iff, exec_zoom]
  constructor
  · rintro ⟨r, t', he, hq⟩
    obtain ⟨⟨r', s'⟩, hp, he⟩ := Option.map_eq_some_iff.mp he
    cases he
    exact ⟨_, _, hp, hq⟩
  · rintro ⟨r, s', he, hq⟩
    exact ⟨r, l.put s' t, by rw [he]; rfl, hq⟩

/-- What every change of the part keeps, the program on it keeps. -/
theorem always_zoom {φ : T → T → Prop} (h : ∀ s t, φ t (l.put s t)) (p : Prog S E α) : Always φ (p.zoom l) := by
  induction p with
  | ret a => trivial
  | raise e => trivial
  | call g u k f ih ihf => exact ⟨fun t _ => h _ t, fun t => ih (l.get t), ihf⟩

end Prog
