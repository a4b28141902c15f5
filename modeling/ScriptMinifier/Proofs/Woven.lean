import ScriptMinifier.Literal.Table
import ScriptMinifier.Proofs.Spacing

/-!
# Gaps and what stands between them

Every stage of minifying sees a script as stretches of code with literals, or
placeholders for literals, in between. `Woven` is that view: a gap, an item, a
gap, and so on, with one gap more than there are items. The gaps may be empty.
-/

namespace ScriptMinifier

/-- Gaps of code with items in between. -/
inductive Woven (α : Type) where
  | last (gap : Text)
  | cons (gap : Text) (item : α) (rest : Woven α)
  deriving Repr, DecidableEq

namespace Woven

variable {α : Type}

def gaps : Woven α → List Text
  | last gap => [gap]
  | cons gap _ rest => gap :: rest.gaps

def items : Woven α → List α
  | last _ => []
  | cons _ item rest => item :: rest.items

/-- The text of gaps and items in order, each item as `write` writes it. -/
def render (write : α → Text) : Woven α → Text
  | last gap => gap
  | cons gap item rest => gap ++ (write item ++ rest.render write)

def mapGaps (f : Text → Text) : Woven α → Woven α
  | last gap => last (f gap)
  | cons gap item rest => cons (f gap) item (rest.mapGaps f)

/-- The same gaps with numbers for the items, counting up from `first`. -/
def number (first : Nat) : Woven α → Woven Nat
  | last gap => last gap
  | cons gap _ rest => cons gap first (rest.number (first + 1))

def mapFirst (f : Text → Text) : Woven α → Woven α
  | last gap => last (f gap)
  | cons gap item rest => cons (f gap) item rest

def mapLast (f : Text → Text) : Woven α → Woven α
  | last gap => last (f gap)
  | cons gap item rest => cons gap item (rest.mapLast f)

/-- Puts more code in front. -/
def prepend (s : Text) : Woven α → Woven α
  | last gap => last (s ++ gap)
  | cons gap item rest => cons (s ++ gap) item rest

/-- The gap in front of the first item. -/
def first : Woven α → Text
  | last gap => gap
  | cons gap _ _ => gap

/-- The text with the literals themselves. -/
def text (w : Woven Text) : Text := w.render id

/-- The text with placeholders for the literals, numbered from `first`. -/
def masked (first : Nat) (w : Woven Text) : Text :=
  (w.number first).render placeholder

@[simp] theorem render_prepend (write : α → Text) (s : Text) (w : Woven α) :
    (w.prepend s).render write = s ++ w.render write := by
  cases w <;> simp [prepend, render]

@[simp] theorem items_prepend (s : Text) (w : Woven α) :
    (w.prepend s).items = w.items := by
  cases w <;> rfl

@[simp] theorem first_prepend (s : Text) (w : Woven α) :
    (w.prepend s).first = s ++ w.first := by
  cases w <;> rfl

@[simp] theorem number_prepend (s : Text) (w : Woven α) (first : Nat) :
    (w.prepend s).number first = (w.number first).prepend s := by
  cases w <;> rfl

@[simp] theorem text_prepend (s : Text) (w : Woven Text) :
    (w.prepend s).text = s ++ w.text :=
  render_prepend id s w

@[simp] theorem masked_prepend (s : Text) (w : Woven Text) (first : Nat) :
    (w.prepend s).masked first = s ++ w.masked first := by
  rw [masked, number_prepend, render_prepend, masked]

@[simp] theorem text_last (gap : Text) : (last gap : Woven Text).text = gap :=
  rfl

@[simp] theorem text_cons (gap item : Text) (w : Woven Text) :
    (cons gap item w).text = gap ++ (item ++ w.text) :=
  rfl

@[simp] theorem masked_last (first : Nat) (gap : Text) :
    (last gap : Woven Text).masked first = gap :=
  rfl

@[simp] theorem masked_cons (first : Nat) (gap item : Text) (w : Woven Text) :
    (cons gap item w).masked first =
      gap ++ (placeholder first ++ w.masked (first + 1)) :=
  rfl

@[simp] theorem items_mapGaps (f : Text → Text) (w : Woven α) :
    (w.mapGaps f).items = w.items := by
  induction w with
  | last gap => rfl
  | cons gap item rest ih => simp [mapGaps, items, ih]

@[simp] theorem gaps_mapGaps (f : Text → Text) (w : Woven α) :
    (w.mapGaps f).gaps = w.gaps.map f := by
  induction w with
  | last gap => rfl
  | cons gap item rest ih => simp [mapGaps, gaps, ih]

@[simp] theorem number_mapGaps (f : Text → Text) (w : Woven α) (first : Nat) :
    (w.mapGaps f).number first = (w.number first).mapGaps f := by
  induction w generalizing first with
  | last gap => rfl
  | cons gap item rest ih => simp [mapGaps, number, ih]

@[simp] theorem gaps_number (w : Woven α) (first : Nat) :
    (w.number first).gaps = w.gaps := by
  induction w generalizing first with
  | last gap => rfl
  | cons gap item rest ih => simp [number, gaps, ih]

@[simp] theorem items_mapFirst (f : Text → Text) (w : Woven α) :
    (w.mapFirst f).items = w.items := by
  cases w <;> rfl

@[simp] theorem items_mapLast (f : Text → Text) (w : Woven α) :
    (w.mapLast f).items = w.items := by
  induction w with
  | last gap => rfl
  | cons gap item rest ih => simp [mapLast, items, ih]

theorem forall_gaps_mapFirst {f : Text → Text} {P : Text → Prop}
    (hf : ∀ g, P g → P (f g)) {w : Woven α} (h : ∀ g ∈ w.gaps, P g) :
    ∀ g ∈ (w.mapFirst f).gaps, P g := by
  cases w with
  | last gap => simpa [mapFirst, gaps] using hf gap (h gap (by simp [gaps]))
  | cons gap item rest =>
      rw [gaps, List.forall_mem_cons] at h
      rw [mapFirst, gaps, List.forall_mem_cons]
      exact ⟨hf gap h.1, h.2⟩

theorem forall_gaps_mapLast {f : Text → Text} {P : Text → Prop}
    (hf : ∀ g, P g → P (f g)) {w : Woven α} (h : ∀ g ∈ w.gaps, P g) :
    ∀ g ∈ (w.mapLast f).gaps, P g := by
  induction w with
  | last gap => simpa [mapLast, gaps] using hf gap (h gap (by simp [gaps]))
  | cons gap item rest ih =>
      rw [gaps, List.forall_mem_cons] at h
      rw [mapLast, gaps, List.forall_mem_cons]
      exact ⟨h.1, ih h.2⟩

theorem forall_gaps_mapGaps {f : Text → Text} {P Q : Text → Prop}
    (hf : ∀ g, P g → Q (f g)) {w : Woven α} (h : ∀ g ∈ w.gaps, P g) :
    ∀ g ∈ (w.mapGaps f).gaps, Q g := by
  rw [gaps_mapGaps, List.forall_mem_map]
  exact fun g hg => hf g (h g hg)

/-- A property of characters holds in all gaps after more code is put in front
if it holds in that code and in the gaps. -/
theorem forall_gaps_prepend {P : Char → Prop} {s : Text} {w : Woven α}
    (hs : ∀ c ∈ s, P c) (h : ∀ g ∈ w.gaps, ∀ c ∈ g, P c) :
    ∀ g ∈ (w.prepend s).gaps, ∀ c ∈ g, P c := by
  cases w with
  | last gap =>
      simp only [gaps, List.forall_mem_singleton] at h
      simp only [prepend, gaps, List.forall_mem_singleton,
        List.forall_mem_append]
      exact ⟨hs, h⟩
  | cons gap item rest =>
      rw [gaps, List.forall_mem_cons] at h
      rw [prepend, gaps, List.forall_mem_cons, List.forall_mem_append]
      exact ⟨⟨hs, h.1⟩, h.2⟩

theorem mapGaps_eq_self {f : Text → Text} {w : Woven α}
    (h : ∀ g ∈ w.gaps, f g = g) : w.mapGaps f = w := by
  induction w with
  | last gap => rw [mapGaps, h gap (by simp [gaps])]
  | cons gap item rest ih =>
      rw [mapGaps, h gap (by simp [gaps]),
        ih (fun g hg => h g (List.mem_cons_of_mem _ hg))]

end Woven

end ScriptMinifier
