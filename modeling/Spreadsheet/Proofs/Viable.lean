import Spreadsheet.Proofs.Grammar

/-! The beginnings of formulas. Some tokens begin a formula just if each of them may stand where it
stands, which the parentheses that are open and the token before it decide. -/

namespace Spreadsheet

namespace Grammar

open Spreadsheet.Parser (Level)

def Derivable (s : Symbol) (ts : List Token) : Prop :=
  ∃ e n d, Derives s ts e n d

def Viable (us : List Token) : Prop :=
  ∃ vs, Derivable (.chain .sum) (us ++ vs)

inductive Frame
  | group
  | call

inductive Place
  | operand
  | arguments
  | parenthesis
  /-- An address has ended, and with it an operand if no colon follows. -/
  | address
  | corner
  | operator

def begin? (fs : List Frame) : Token → Option (Place × List Frame)
  | .number _ | .text _ => some (.operator, fs)
  | .address _ => some (.address, fs)
  | .name _ => some (.parenthesis, fs)
  | .plus | .minus => some (.operand, fs)
  | .opening => some (.operand, .group :: fs)
  | .star | .slash | .closing | .colon | .comma => none

def goOn? : List Frame → Token → Option (Place × List Frame)
  | fs, .plus | fs, .minus | fs, .star | fs, .slash => some (.operand, fs)
  | _ :: fs, .closing => some (.operator, fs)
  | .call :: fs, .comma => some (.operand, .call :: fs)
  | _, _ => none

def advance? : Place → List Frame → Token → Option (Place × List Frame)
  | .arguments, .call :: fs, .closing => some (.operator, fs)
  | .operand, fs, t | .arguments, fs, t => begin? fs t
  | .parenthesis, fs, .opening => some (.arguments, .call :: fs)
  | .address, fs, .colon => some (.corner, fs)
  | .corner, fs, .address _ => some (.operator, fs)
  | .operator, fs, t | .address, fs, t => goOn? fs t
  | .parenthesis, _, _ | .corner, _, _ => none

def Place.ends : Place → List Frame → Bool
  | .operator, [] | .address, [] => true
  | _, _ => false

/-- The tokens from the first on that may not stand where it does, or none of them where the formula is
not at its end. -/
def fault? : Place → List Frame → List Token → Option (List Token)
  | place, fs, [] => if place.ends fs then none else some []
  | place, fs, t :: ts =>
    match advance? place fs t with
    | some (place', fs') => fault? place' fs' ts
    | none => some (t :: ts)

section Steps

variable {place place' : Place} {fs fs' : List Frame} {t : Token} {us ts rest : List Token}

theorem fault?_of_some (h : advance? place fs t = some (place', fs')) :
    fault? place fs (t :: ts) = fault? place' fs' ts := by
  rw [fault?, h]

theorem fault?_of_none (h : advance? place fs t = none) :
    fault? place fs (t :: ts) = some (t :: ts) := by
  rw [fault?, h]

theorem advance?_eq_goOn? (h : place = .operator ∨ place = .address ∧ t ≠ .colon) :
    advance? place fs t = goOn? fs t := by
  rcases h with rfl | ⟨rfl, ht⟩
  · rfl
  · cases t with
    | colon => exact absurd rfl ht
    | _ => rfl

theorem Joins.ne_colon {level : Level} {op : Operator} (h : Joins level t op) : t ≠ .colon := by
  cases h <;> exact Token.noConfusion

theorem Joins.goOn? {level : Level} {op : Operator} (h : Joins level t op) (fs : List Frame) :
    goOn? fs t = some (.operand, fs) := by
  cases h <;> rfl

theorem suffix_of_fault? (h : fault? place fs ts = some rest) : rest <:+ ts := by
  fun_induction fault? place fs ts with
  | case1 => cases h
  | case2 => cases h; exact List.suffix_refl []
  | case3 _ _ t ts _ _ _ ih => exact (ih h).trans (List.suffix_cons t ts)
  | case4 => cases h; exact List.suffix_refl _

theorem advance?_eq_none (h : fault? place fs (t :: ts) = some (t :: ts)) :
    advance? place fs t = none := by
  rw [fault?] at h
  split at h
  · exact absurd (suffix_of_fault? h).length_le (Nat.not_succ_le_self _)
  · assumption

theorem exists_of_fault?_cons (h : fault? place fs (t :: ts ++ rest) = some rest) :
    ∃ place' fs', advance? place fs t = some (place', fs') ∧
      fault? place' fs' (ts ++ rest) = some rest := by
  rw [List.cons_append, fault?] at h
  split at h
  next hstep => exact ⟨_, _, hstep, h⟩
  · have hlength := congrArg List.length (Option.some.inj h)
    simp only [List.length_cons, List.length_append] at hlength
    omega

theorem fault?_append_cons (h : fault? place fs (us ++ t :: ts) = some (t :: ts)) (vs : List Token) :
    fault? place fs (us ++ t :: vs) = some (t :: vs) := by
  induction us generalizing place fs with
  | nil => exact fault?_of_none (advance?_eq_none h)
  | cons u us ih =>
    obtain ⟨_, _, hstep, h⟩ := exists_of_fault?_cons h
    rw [List.cons_append, fault?_of_some hstep]
    exact ih h

end Steps

section Ended

variable {place : Place} {f : Frame} {fs : List Frame} {t : Token} {ts : List Token}

theorem fault?_operator {level : Level} {op : Operator}
    (h : place = .operator ∨ place = .address ∧ t ≠ .colon) (hj : Joins level t op) :
    fault? place fs (t :: ts) = fault? .operand fs ts := by
  rw [fault?_of_some ((advance?_eq_goOn? h).trans (hj.goOn? fs))]

theorem fault?_closing (h : place = .operator ∨ place = .address) :
    fault? place (f :: fs) (.closing :: ts) = fault? .operator fs ts := by
  rcases h with rfl | rfl <;> rfl

theorem fault?_comma (h : place = .operator ∨ place = .address) :
    fault? place (.call :: fs) (.comma :: ts) = fault? .operand (.call :: fs) ts := by
  rcases h with rfl | rfl <;> rfl

theorem fault?_arguments (h : ∀ us, ts ≠ .closing :: us) :
    fault? .arguments fs ts = fault? .operand fs ts := by
  cases ts with
  | nil => rfl
  | cons t us =>
    have hstep : advance? .arguments fs t = advance? .operand fs t := by
      rcases fs with - | ⟨f, fs⟩
      · rfl
      cases t with
      | closing => exact absurd rfl (h us)
      | _ => cases f <;> rfl
    rw [fault?, fault?, hstep]

theorem fault?_corner (h : ∀ a us, ts ≠ .address a :: us) : fault? .corner fs ts = some ts := by
  cases ts with
  | nil => rfl
  | cons t us =>
    cases t with
    | address a => exact absurd rfl (h a us)
    | _ => rfl

end Ended

theorem Derives.exists_fault?_append {s : Symbol} {ts : List Token} {e : s.Tree} {n d : Nat}
    (h : Derives s ts e n d) (fs : List Frame) (hfs : s = .arguments → ∃ gs, fs = .call :: gs)
    (rest : List Token) : ∃ place, (place = .operator ∨ place = .address) ∧
      fault? .operand fs (ts ++ rest) = fault? place fs rest := by
  induction h generalizing fs rest with
  | sum _ ih => exact ih fs nofun rest
  | product _ ih => exact ih fs nofun rest
  | joinSum hj _ _ ihl ihr | joinProduct hj _ _ ihl ihr =>
    obtain ⟨p, hp, hl⟩ := ihl fs nofun (_ :: _ ++ rest)
    obtain ⟨q, hq, hr⟩ := ihr fs nofun rest
    refine ⟨q, hq, ?_⟩
    have hnext := hp.imp_right fun hplace => And.intro hplace hj.ne_colon
    rw [List.append_assoc, hl, List.cons_append, fault?_operator hnext hj, hr]
  | unsigned _ ih => exact ih fs nofun rest
  | plus _ ih | minus _ ih => exact ih fs nofun rest
  | number | text | range | callEmpty => exact ⟨.operator, .inl rfl, rfl⟩
  | cell => exact ⟨.address, .inr rfl, rfl⟩
  | @call f ts es n d h ih =>
    obtain ⟨p, hp, hread⟩ := ih (.call :: fs) (fun _ => ⟨fs, rfl⟩) (.closing :: rest)
    have hopen : ∀ us, ts ++ .closing :: rest ≠ .closing :: us := by
      obtain ⟨t, us, rfl, ht⟩ := h.exists_cons
      rintro vs ⟨⟩
      exact ht rfl
    refine ⟨.operator, .inl rfl, ?_⟩
    rw [List.append_assoc]
    change fault? .arguments (.call :: fs) (ts ++ .closing :: rest) = _
    rw [fault?_arguments hopen, hread, fault?_closing hp]
  | @parens ts e n d h ih =>
    obtain ⟨p, hp, hread⟩ := ih (.group :: fs) nofun (.closing :: rest)
    refine ⟨.operator, .inl rfl, ?_⟩
    rw [List.append_assoc]
    change fault? .operand (.group :: fs) (ts ++ .closing :: rest) = _
    rw [hread, fault?_closing hp]
  | argument _ ih => exact ih fs nofun rest
  | comma _ _ ihe ihes =>
    obtain ⟨gs, rfl⟩ := hfs rfl
    obtain ⟨p, hp, he⟩ := ihe (.call :: gs) nofun (.comma :: _ ++ rest)
    obtain ⟨q, hq, hes⟩ := ihes (.call :: gs) hfs rest
    refine ⟨q, hq, ?_⟩
    rw [List.append_assoc, he, List.cons_append, fault?_comma hp, hes]

theorem Derivable.fault?_eq_none {ts : List Token} (h : Derivable (.chain .sum) ts) :
    fault? .operand [] ts = none := by
  obtain ⟨e, n, d, h⟩ := h
  obtain ⟨place, hplace, hread⟩ := h.exists_fault?_append [] nofun []
  rw [List.append_nil] at hread
  rw [hread]
  rcases hplace with rfl | rfl <;> rfl

def Frame.inner : Frame → Symbol
  | .group => .chain .sum
  | .call => .arguments

def Opens : List Frame → List Token → Prop
  | [], us => us = []
  -- A parenthesis that may begin here is, once it closes, a part of an operand of the outer ones.
  | f :: fs, us => ∀ xs, Derivable f.inner xs → ∃ vs ys, us ++ xs ++ [.closing] = vs ++ ys ∧
      Derivable (.chain .sum) ys ∧ Opens fs vs

def Fills (fs : List Frame) (us : List Token) : Prop :=
  ∃ vs ys, us = vs ++ ys ∧ Derivable (.chain .sum) ys ∧ Opens fs vs

/-- The tokens lead to a place: with whatever may stand there they go on as they have to. -/
def Place.Holds (us : List Token) : Place → List Frame → Prop
  | .operand, fs => ∀ ys, Derivable .signed ys → Fills fs (us ++ ys)
  | .arguments, fs => (∀ ys, Derivable .signed ys → Fills fs (us ++ ys)) ∧
      ∀ gs, fs = .call :: gs → Fills gs (us ++ [.closing])
  | .parenthesis, fs => Fills fs (us ++ [.opening, .closing]) ∧
      ∀ xs, Derivable .arguments xs → Fills fs (us ++ .opening :: xs ++ [.closing])
  | .address, fs => Fills fs us ∧ ∀ a, Fills fs (us ++ [.colon, .address a])
  | .corner, fs => ∀ a, Fills fs (us ++ [.address a])
  | .operator, fs => Fills fs us

theorem Derivable.of_signed {ts : List Token} (h : Derivable .signed ts) :
    Derivable (.chain .sum) ts := by
  obtain ⟨e, n, d, h⟩ := h
  exact ⟨e, n, d, .sum (.product h)⟩

theorem Derivable.of_primary {ts : List Token} {e : Expr} {n d : Nat} (h : Derives .primary ts e n d) :
    Derivable .signed ts :=
  ⟨e, n, d, .unsigned h⟩

theorem Derivable.inner {ts : List Token} (h : Derivable (.chain .sum) ts) (f : Frame) :
    Derivable f.inner ts := by
  cases f with
  | group => exact h
  | call =>
    obtain ⟨e, n, d, h⟩ := h
    exact ⟨[e], n, d, .argument h⟩

theorem Derivable.join {level : Level} {t : Token} {op : Operator} {xs ys : List Token}
    (hx : Derivable (.chain .sum) xs) (hj : Joins level t op) (hy : Derivable .signed ys) :
    Derivable (.chain .sum) (xs ++ t :: ys) := by
  obtain ⟨l, n, d, hx⟩ := hx
  obtain ⟨r, m, k, hy⟩ := hy
  cases level with
  | sum => exact ⟨_, _, _, .joinSum hj hx (.product hy)⟩
  | product =>
    cases hx with
    | sum hx => exact ⟨_, _, _, .sum (.joinProduct hj hx hy)⟩
    | joinSum hj' hl hr =>
      rw [List.append_assoc]
      exact ⟨_, _, _, .joinSum hj' hl (.joinProduct hj hr hy)⟩

section Holds

variable {place place' : Place} {fs fs' : List Frame} {t : Token} {us : List Token}

theorem Opens.operand (h : Opens fs us) : Place.operand.Holds us fs :=
  fun ys hys => ⟨us, ys, rfl, hys.of_signed, h⟩

theorem Place.Holds.of_begin? (h : Place.operand.Holds us fs)
    (ht : begin? fs t = some (place, fs')) : place.Holds (us ++ [t]) fs' := by
  have hoperand : ∀ ts, Derivable .signed (t :: ts) → Fills fs (us ++ [t] ++ ts) := by
    intro ts hts
    rw [List.append_assoc]
    exact h _ hts
  cases t with
  | number x =>
    cases ht
    exact h _ (.of_primary (.number x))
  | text s =>
    cases ht
    exact h _ (.of_primary (.text s))
  | address a =>
    cases ht
    exact ⟨h _ (.of_primary (.cell a)), fun b => hoperand _ (.of_primary (.range a b))⟩
  | name f =>
    cases ht
    refine ⟨hoperand _ (.of_primary (.callEmpty f)), fun xs hxs => ?_⟩
    obtain ⟨es, n, d, hxs⟩ := hxs
    rw [List.append_assoc]
    exact hoperand _ (.of_primary (.call hxs))
  | plus =>
    cases ht
    rintro ys ⟨e, n, d, hys⟩
    exact hoperand ys ⟨e, n, d + 1, .plus hys⟩
  | minus =>
    cases ht
    rintro ys ⟨e, n, d, hys⟩
    exact hoperand ys ⟨.neg e, n, d + 1, .minus hys⟩
  | opening =>
    cases ht
    have hopens : Opens (.group :: fs) (us ++ [.opening]) := by
      rintro xs ⟨e, n, d, hxs⟩
      rw [List.append_assoc]
      exact hoperand _ (.of_primary (.parens hxs))
    exact hopens.operand
  | star | slash | closing | colon | comma => cases ht

theorem Fills.closing {f : Frame} (h : Fills (f :: fs) us) : Fills fs (us ++ [.closing]) := by
  obtain ⟨vs, xs, rfl, hxs, hvs⟩ := h
  exact hvs xs (hxs.inner f)

theorem Fills.comma (h : Fills (.call :: fs) us) : Opens (.call :: fs) (us ++ [.comma]) := by
  obtain ⟨vs, xs, rfl, ⟨e, n, d, hxs⟩, hvs⟩ := h
  rintro ys ⟨es, m, k, hys⟩
  have hargs : Derivable .arguments (xs ++ .comma :: ys) := ⟨e :: es, _, _, .comma hxs hys⟩
  have hall := hvs _ hargs
  simpa only [List.append_assoc, List.singleton_append, List.nil_append, List.cons_append] using hall

theorem Fills.operator {level : Level} {op : Operator} (h : Fills fs us) (hj : Joins level t op) :
    Place.operand.Holds (us ++ [t]) fs := by
  obtain ⟨vs, xs, rfl, hxs, hvs⟩ := h
  intro ys hys
  refine ⟨vs, xs ++ t :: ys, ?_, hxs.join hj hys, hvs⟩
  rw [List.append_assoc, List.append_assoc, List.singleton_append]

theorem Place.Holds.of_goOn? (h : Fills fs us) (ht : goOn? fs t = some (place, fs')) :
    place.Holds (us ++ [t]) fs' := by
  rw [Grammar.goOn?.eq_def] at ht
  split at ht
  all_goals cases ht
  · exact h.operator .plus
  · exact h.operator .minus
  · exact h.operator .star
  · exact h.operator .slash
  · exact h.closing
  · exact h.comma.operand

theorem Place.Holds.of_advance? (h : place.Holds us fs)
    (ht : advance? place fs t = some (place', fs')) : place'.Holds (us ++ [t]) fs' := by
  rw [advance?.eq_def] at ht
  split at ht
  · cases ht
    exact h.2 _ rfl
  · exact of_begin? h ht
  · exact of_begin? h.1 ht
  · cases ht
    obtain ⟨hempty, hsome⟩ := h
    have hopens : Opens (.call :: fs) (us ++ [.opening]) := by
      intro xs hxs
      rw [List.append_assoc us]
      exact hsome xs hxs
    refine ⟨hopens.operand, ?_⟩
    rintro gs ⟨⟩
    rw [List.append_assoc]
    exact hempty
  · cases ht
    intro a
    rw [List.append_assoc]
    exact h.2 a
  · cases ht
    exact h _
  · exact of_goOn? h ht
  · exact of_goOn? h.1 ht
  · cases ht
  · cases ht

theorem Place.Holds.of_fault? {ts rest : List Token} (h : place.Holds us fs)
    (hts : fault? place fs (ts ++ rest) = some rest) :
    ∃ (place' : Place) (fs' : List Frame), place'.Holds (us ++ ts) fs' := by
  induction ts generalizing place fs us with
  | nil => exact ⟨place, fs, by rwa [List.append_nil]⟩
  | cons t ts ih =>
    obtain ⟨_, _, hstep, hts⟩ := exists_of_fault?_cons hts
    have hall := ih (h.of_advance? hstep) hts
    rwa [List.append_assoc, List.singleton_append] at hall

theorem Viable.of_append {vs : List Token} (h : Viable (us ++ vs)) : Viable us := by
  obtain ⟨ws, h⟩ := h
  rw [List.append_assoc] at h
  exact ⟨vs ++ ws, h⟩

theorem Fills.viable (h : Fills fs us) : Viable us := by
  induction fs generalizing us with
  | nil =>
    obtain ⟨_, ys, rfl, hys, rfl⟩ := h
    exact ⟨[], by rwa [List.append_nil]⟩
  | cons f fs ih => exact (ih h.closing).of_append

theorem Place.Holds.viable (h : place.Holds us fs) : Viable us := by
  have hnumber : Derivable .signed [.number 0] := .of_primary (.number 0)
  cases place with
  | operand => exact (h _ hnumber).viable.of_append
  | arguments => exact (h.1 _ hnumber).viable.of_append
  | parenthesis => exact h.1.viable.of_append
  | address => exact h.1.viable
  | corner => exact (h ⟨0, 0⟩).viable.of_append
  | operator => exact Fills.viable h

end Holds

theorem viable_of_fault? {us rest : List Token} (h : fault? .operand [] (us ++ rest) = some rest) :
    Viable us ∧ ∀ t ∈ rest.head?, ¬Viable (us ++ [t]) := by
  have hstart : Place.operand.Holds [] [] := Opens.operand rfl
  obtain ⟨place, fs, hholds⟩ := Place.Holds.of_fault? hstart h
  refine ⟨hholds.viable, ?_⟩
  rintro t ht ⟨vs, hvs⟩
  obtain ⟨ts, rfl⟩ := List.head?_eq_some_iff.1 ht
  have hfault := fault?_append_cons h vs
  rw [List.append_assoc, List.singleton_append] at hvs
  rw [hvs.fault?_eq_none] at hfault
  cases hfault

end Grammar

end Spreadsheet
