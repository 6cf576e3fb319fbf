import CueCheck.Log.Record
import CueCheck.Proofs.Results
import Mathlib.Data.List.Forall2

/-!
The conversions of a message, from left to right. The message can be filled exactly with arguments
that go with its conversions one by one.
-/

namespace CueCheck

/-- What stands for an argument in a message: a text or a number. -/
inductive Conversion where
  | text
  | number
deriving DecidableEq, Repr

namespace Conversion

def letter : Conversion → Char
  | text => 's'
  | number => 'd'

def ofLetter? (c : Char) : Option Conversion :=
  if c = 's' then some text else if c = 'd' then some number else none

theorem ofLetter?_eq_some_iff {c : Char} {k : Conversion} :
    ofLetter? c = some k ↔ c = k.letter := by
  rw [ofLetter?]
  split
  · next hs =>
    subst hs
    cases k <;> decide
  · next hs =>
    split
    · next hd =>
      subst hd
      cases k <;> decide
    · next hd =>
      cases k with
      | text => simpa [letter] using hs
      | number => simpa [letter] using hd

/-- An argument as a conversion shows it. -/
def shown : Conversion → Json → Except FormatFailure Text
  | text, value => .ok (LogRecord.shown value)
  | number, value => LogRecord.shownInt value

/-- Whether an argument goes with a conversion: any value is shown as a text, and integers and truth
values as a number. -/
def Accepts : Conversion → Json → Prop
  | text, _ => True
  | number, .int _ | number, .bool _ => True
  | number, _ => False

theorem exists_shown_iff {k : Conversion} {value : Json} :
    (∃ t, k.shown value = .ok t) ↔ k.Accepts value := by
  cases k with
  | text => exact iff_of_true ⟨_, rfl⟩ trivial
  | number => cases value <;> simp [shown, LogRecord.shownInt, Accepts]

/-- What a character adds to the conversions of a message, and whether it starts the next; `started`
says whether the character before it started one. -/
def step (started : Bool) (c : Char) : Option (List Conversion × Bool) :=
  if started then if c = '%' then some ([], false) else (ofLetter? c).map fun k => ([k], false)
  else some ([], c == '%')

end Conversion

/-- The conversions in the rest of a message. -/
def conversionsFrom (started : Bool) : Text → Option (List Conversion)
  | [] => if started then none else some []
  | c :: t =>
    (Conversion.step started c).bind fun (new, started) =>
      (conversionsFrom started t).map (new ++ ·)

/-- The conversions of a message from left to right, if all other percent signs in it are doubled. -/
def conversions? (t : Text) : Option (List Conversion) := conversionsFrom false t

section Conversions

variable {started : Bool} {c : Char} {t x y : Text} {cs : List Conversion}

theorem conversionsFrom_cons_of_ne (h : c ≠ '%') :
    conversionsFrom false (c :: t) = conversionsFrom false t := by
  have hstep : Conversion.step false c = some ([], false) := by simp [Conversion.step, h]
  simp [conversionsFrom, hstep]

theorem conversionsFrom_append_of_plain (h : '%' ∉ x) :
    conversionsFrom false (x ++ y) = conversionsFrom false y := by
  induction x with
  | nil => rfl
  | cons c x ih =>
    rw [List.mem_cons, not_or] at h
    rw [List.cons_append, conversionsFrom_cons_of_ne (Ne.symm h.1), ih h.2]

theorem conversions?_of_plain (h : '%' ∉ t) : conversions? t = some [] := by
  rw [conversions?, ← List.append_nil t, conversionsFrom_append_of_plain h]
  rfl

/-- A text is read in two parts where a conversion that the first part starts cannot go on. -/
theorem exists_of_conversionsFrom_append (hy : conversionsFrom true y = none)
    (h : conversionsFrom started (x ++ y) = some cs) :
    ∃ front back, conversionsFrom started x = some front ∧ conversionsFrom false y = some back ∧
      cs = front ++ back := by
  induction x generalizing started cs with
  | nil =>
    cases started with
    | false => exact ⟨[], cs, rfl, h, rfl⟩
    | true =>
      rw [List.nil_append, hy] at h
      cases h
  | cons c x ih =>
    obtain ⟨⟨new, started'⟩, hstep, h⟩ := Option.bind_eq_some_iff.1 h
    obtain ⟨rest, hrest, rfl⟩ := Option.map_eq_some_iff.1 h
    obtain ⟨front, back, hfront, hback, rfl⟩ := ih hrest
    refine ⟨new ++ front, back, ?_, hback, (List.append_assoc ..).symm⟩
    exact Option.bind_eq_some_iff.2 ⟨_, hstep, Option.map_eq_some_iff.2 ⟨front, hfront, rfl⟩⟩

theorem conversions?_percent : conversions? ('%' :: t) = conversionsFrom true t := by
  have hstep : Conversion.step false '%' = some ([], true) := rfl
  simp [conversions?, conversionsFrom, hstep]

theorem conversionsFrom_true_eq_none (h : ∀ c ∈ t.head?, c ≠ '%' ∧ c ≠ 's' ∧ c ≠ 'd') :
    conversionsFrom true t = none := by
  cases t with
  | nil => rfl
  | cons c t =>
    obtain ⟨hpercent, hs, hd⟩ := h c rfl
    simp [conversionsFrom, Conversion.step, Conversion.ofLetter?, hpercent, hs, hd]

theorem conversionsFrom_true_eq_some (h : conversionsFrom true t = some cs) :
    (∃ rest, t = '%' :: rest ∧ conversions? rest = some cs) ∨
      ∃ k rest later, t = k.letter :: rest ∧ conversions? rest = some later ∧ cs = k :: later := by
  cases t with
  | nil => cases h
  | cons c t =>
    obtain ⟨⟨new, started⟩, hstep, h⟩ := Option.bind_eq_some_iff.1 h
    obtain ⟨later, hlater, rfl⟩ := Option.map_eq_some_iff.1 h
    rw [Conversion.step, if_pos rfl] at hstep
    split at hstep
    · next hpercent =>
      injection hstep with hstep
      injection hstep with hnew hstarted
      subst hpercent hnew hstarted
      exact .inl ⟨t, rfl, hlater⟩
    · obtain ⟨k, hk, hstep⟩ := Option.map_eq_some_iff.1 hstep
      injection hstep with hnew hstarted
      subst hnew hstarted
      rw [Conversion.ofLetter?_eq_some_iff] at hk
      subst hk
      exact .inr ⟨k, t, later, rfl, hlater, rfl⟩

/-- What a word without percent signs ends of a conversion that may have been started. -/
def ending (started : Bool) (w : Text) : Option (List Conversion) :=
  if started then (w.head?.bind Conversion.ofLetter?).map ([·]) else some []

theorem conversionsFrom_word {w : Text} (hne : w ≠ []) (hw : '%' ∉ w) :
    conversionsFrom started (w ++ x) =
      (ending started w).bind fun front => (conversionsFrom false x).map (front ++ ·) := by
  cases started with
  | false => simp [ending, conversionsFrom_append_of_plain hw]
  | true =>
    obtain ⟨c, w, rfl⟩ := List.exists_cons_of_ne_nil hne
    rw [List.mem_cons, not_or] at hw
    have hrest : conversionsFrom false (w ++ x) = conversionsFrom false x :=
      conversionsFrom_append_of_plain hw.2
    rw [List.cons_append, conversionsFrom, Conversion.step, if_pos rfl, if_neg (Ne.symm hw.1),
      ending, if_pos rfl, List.head?_cons, Option.bind_some]
    cases Conversion.ofLetter? c with
    | none => rfl
    | some k => simp [hrest]

end Conversions

namespace LogRecord

section Filling

variable {length fuel : Nat} {c : Char} {t : Text} {values : List Json} {cs : List Conversion}

theorem fill_nil : fill length (fuel + 1) ⟨values, none⟩ [] =
    if values.isEmpty then .ok [] else .error .tooManyArguments := by
  cases values <;> rfl

theorem fill_cons (hc : c ≠ '%') (pending : Pending) :
    fill length (fuel + 1) pending (c :: t) =
      do return c :: (← fill length fuel pending t) := by
  rw [fill]
  exact hc

theorem fill_doubled (pending : Pending) : fill length (fuel + 1) pending ('%' :: '%' :: t) =
    do return '%' :: (← fill length fuel pending t) := rfl

theorem fill_conversion (k : Conversion) (value : Json) :
    fill length (fuel + 1) ⟨value :: values, none⟩ ('%' :: k.letter :: t) =
      do return (← k.shown value) ++ (← fill length fuel ⟨values, none⟩ t) := by
  cases k <;> rfl

theorem fill_missing (k : Conversion) :
    fill length (fuel + 1) ⟨[], none⟩ ('%' :: k.letter :: t) = .error .tooFewArguments := by
  cases k <;> rfl

/-- Arguments fill a message exactly if each goes with the conversion in its place. -/
theorem exists_fill_iff (hfuel : t.length < fuel) (h : conversions? t = some cs) :
    (∃ line, fill length fuel ⟨values, none⟩ t = .ok line) ↔
      List.Forall₂ Conversion.Accepts cs values := by
  induction fuel generalizing t values cs with
  | zero => omega
  | succ fuel ih =>
    cases t with
    | nil =>
      injection h with h
      subst h
      rw [fill_nil, List.forall₂_nil_left_iff]
      cases values <;> simp
    | cons c t =>
      rw [List.length_cons] at hfuel
      by_cases hc : c = '%'
      · subst hc
        rw [conversions?_percent] at h
        rcases conversionsFrom_true_eq_some h with
          ⟨rest, rfl, hrest⟩ | ⟨k, rest, later, rfl, hlater, rfl⟩
        · rw [fill_doubled, exists_return_iff]
          exact ih (by simp at hfuel; omega) hrest
        · cases values with
          | nil => simp [fill_missing, List.forall₂_nil_right_iff]
          | cons value values =>
            have hlater : (∃ line, fill length fuel ⟨values, none⟩ rest = .ok line) ↔
                List.Forall₂ Conversion.Accepts later values :=
              ih (by simp at hfuel; omega) hlater
            rw [fill_conversion, List.forall₂_cons, ← hlater, ← Conversion.exists_shown_iff]
            cases k.shown value with
            | error failure => simp [bind, Except.bind]
            | ok shown =>
              rw [and_iff_right ⟨shown, rfl⟩]
              exact exists_return_iff
      · rw [fill_cons hc, exists_return_iff]
        rw [conversions?, conversionsFrom_cons_of_ne hc] at h
        exact ih (by omega) h

end Filling

end LogRecord

end CueCheck
