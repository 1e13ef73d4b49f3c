import Mathlib.Data.List.Basic
import Spreadsheet.Proofs.Parser.Sound
import Spreadsheet.Proofs.Success
import Spreadsheet.Proofs.Viable

/-! What a syntax error points at. Where the parser finds a token that it does not expect, some formula
begins with the tokens before it and none with that token too; and where it finds that tokens are missing,
some formula begins with those that are there. One lemma for each step of the parser says that the step
stops at the fault of its tokens. -/

namespace Spreadsheet

namespace Parser

open Grammar

variable {limits : Limits} {total bound : Nat}

structure Ended (rank : Nat) (place : Place) (ts : List Token) : Prop where
  place : place = .operator ∨ place = .address ∧ ∀ us, ts ≠ .colon :: us
  stops : ∀ level : Level, level.rank < rank → Stops level ts

def Elsewhere : SyntaxError → Prop
  | .unexpectedToken _ | .unexpectedEnd => False
  | _ => True

/-- A step of the parser stops where the tokens have the fault, if it has an error that points there; and
if it succeeds, the tokens that are left have the same fault. -/
inductive Tracked {α : Type} {bound : Nat} (total rank : Nat) (fs : List Frame)
    (fault : Option (List Token)) : Except SyntaxError (Parsed α bound) → Prop
  | ok {p : Parsed α bound} {place : Place} : Ended rank place p.rest →
      fault = fault? place fs p.rest → Tracked total rank fs fault (.ok p)
  | unexpected {rest : List Token} : fault = some rest →
      Tracked total rank fs fault (.error (unexpected total rest))
  | elsewhere {e : SyntaxError} : Elsewhere e → Tracked total rank fs fault (.error e)

variable {level : Level} {depth operators rank : Nat} {place : Place} {fs : List Frame}
  {fault : Option (List Token)} {t : Token} {ts us : List Token}

section Results

variable {α β : Type} {b b' rank' : Nat} {fs' : List Frame} {r : Except SyntaxError (Parsed α b)}

theorem Tracked.error {e : SyntaxError} (h : Tracked total rank fs fault r) (hr : r = .error e) :
    Tracked total rank' fs' fault (.error e : Except SyntaxError (Parsed β b')) := by
  subst hr
  cases h with
  | unexpected h => exact .unexpected h
  | elsewhere h => exact .elsewhere h

theorem Tracked.exists_ended {p : Parsed α b} (h : Tracked total rank fs fault r) (hr : r = .ok p) :
    ∃ place, Ended rank place p.rest ∧ fault = fault? place fs p.rest := by
  subst hr
  cases h with
  | ok hended hfault => exact ⟨_, hended, hfault⟩

theorem Tracked.map {r' : Except SyntaxError (Parsed β b')} (h : Tracked total rank fs fault r)
    (g : α → β) (herror : ∀ e, r = .error e → r' = .error e)
    (hok : ∀ p, r = .ok p → ∃ hle, r' = .ok (p.map g hle)) : Tracked total rank fs fault r' := by
  cases hr : r with
  | error e =>
    rw [herror e hr]
    exact h.error hr
  | ok p =>
    obtain ⟨hle, hr'⟩ := hok p hr
    obtain ⟨place, hended, hfault⟩ := h.exists_ended hr
    rw [hr']
    exact .ok (p := p.map g hle) hended hfault

end Results

theorem ended_operator (rest : List Token) : Ended 0 .operator rest :=
  ⟨.inl rfl, fun _ h => absurd h (Nat.not_lt_zero _)⟩

theorem Ended.next (h : Ended rank place (t :: us)) :
    place = .operator ∨ place = .address ∧ t ≠ .colon :=
  h.place.imp_right fun ⟨hplace, hcolon⟩ => ⟨hplace, fun ht => hcolon us (congrArg (· :: us) ht)⟩

theorem Ended.fault?_eq_some (h : Ended 2 place ts) (hnil : ts = [] → fs ≠ [])
    (hclosing : ∀ us, ts = .closing :: us → fs = [])
    (hcomma : ∀ us, ts = .comma :: us → ∀ gs, fs ≠ .call :: gs) : fault? place fs ts = some ts := by
  cases ts with
  | nil =>
    cases fs with
    | nil => exact absurd rfl (hnil rfl)
    | cons f fs => cases place <;> rfl
  | cons t us =>
    refine fault?_of_none ((advance?_eq_goOn? h.next).trans ?_)
    rw [goOn?.eq_def]
    split
    · exact absurd .plus (h.stops .sum (by decide) _ _ _ rfl)
    · exact absurd .minus (h.stops .sum (by decide) _ _ _ rfl)
    · exact absurd .star (h.stops .product (by decide) _ _ _ rfl)
    · exact absurd .slash (h.stops .product (by decide) _ _ _ rfl)
    · exact absurd (hclosing _ rfl) (List.cons_ne_nil _ _)
    · exact absurd rfl (hcomma _ rfl _)
    · rfl

theorem Ended.stop (h : Ended level.rank place ts) (hstop : Stops level ts) :
    Ended (level.rank + 1) place ts := by
  refine ⟨h.place, fun level' hlt => ?_⟩
  by_cases heq : level' = level
  · exact heq ▸ hstop
  · apply h.stops
    cases level <;> cases level' <;> simp [Level.rank] at hlt heq ⊢

structure Tracks (limits : Limits) (total bound : Nat) : Prop where
  chain {level : Level} {depth operators : Nat} {ts : List Token} (fs : List Frame) :
    ts.length < bound → Tracked total (level.rank + 1) fs (fault? .operand fs ts)
      (chain limits total level depth operators ts)
  chainTail {level : Level} {depth operators : Nat} {left : Expr} {place : Place} {ts : List Token}
    (fs : List Frame) : ts.length < bound → Ended level.rank place ts →
    Tracked total (level.rank + 1) fs (fault? place fs ts)
      (chainTail limits total level depth operators left ts)
  signed {depth operators : Nat} {ts : List Token} (fs : List Frame) : ts.length < bound →
    Tracked total 0 fs (fault? .operand fs ts) (signed limits total depth operators ts)
  someArguments {depth operators : Nat} {ts : List Token} (fs : List Frame) : ts.length < bound →
    Tracked total 0 fs (fault? .operand (.call :: fs) ts)
      (someArguments limits total depth operators ts)

theorem Tracks.operand (ih : Tracks limits total bound) (fs : List Frame) (hts : ts.length < bound) :
    Tracked total level.rank fs (fault? .operand fs ts)
      (operand limits total level depth operators ts) := by
  cases level with
  | sum =>
    rw [operand_sum]
    exact @Tracks.chain _ _ _ ih .product _ _ _ fs hts
  | product =>
    rw [operand_product]
    exact ih.signed fs hts

theorem Tracks.tracked_chainTail {left : Expr} (ih : Tracks limits total ts.length) (fs : List Frame)
    (h : Ended level.rank place ts) : Tracked total (level.rank + 1) fs (fault? place fs ts)
      (Parser.chainTail limits total level depth operators left ts) := by
  rw [Parser.chainTail.eq_def]
  split
  · exact .ok (h.stop (stops_nil level)) rfl
  next t us =>
  split
  next hop =>
    refine .ok (h.stop ?_) rfl
    rintro _ _ op ⟨⟩ hj
    rw [operator?_eq_some_iff.2 hj] at hop
    cases hop
  next op hop =>
    have hoperand : Tracked total level.rank fs (fault? .operand fs us)
        (Parser.operand limits total level depth operators us) :=
      ih.operand fs (Nat.lt_succ_self us.length)
    rw [fault?_operator h.next (operator?_eq_some_iff.1 hop)]
    split
    next e he => exact hoperand.error he
    next p hp =>
      obtain ⟨place', hended, hfault⟩ := hoperand.exists_ended hp
      dsimp only
      split
      · have htail : Tracked total (level.rank + 1) fs (fault? place' fs p.rest)
            (Parser.chainTail limits total level depth (p.operators + 1) (.binary op left p.value)
              p.rest) :=
          ih.chainTail fs (Nat.lt_succ_of_lt p.shorter) hended
        rw [← hfault] at htail
        exact htail.map id (fun e he => by rw [he]) fun q hq => ⟨_, by rw [hq]⟩
      · exact .elsewhere trivial

theorem Tracks.tracked_chain (ih : Tracks limits total ts.length) (fs : List Frame)
    (hoperand : Tracked total level.rank fs (fault? .operand fs ts)
      (Parser.operand limits total level depth operators ts)) :
    Tracked total (level.rank + 1) fs (fault? .operand fs ts)
      (Parser.chain limits total level depth operators ts) := by
  rw [Parser.chain]
  split
  next e he => exact hoperand.error he
  next p hp =>
    obtain ⟨place, hended, hfault⟩ := hoperand.exists_ended hp
    have htail : Tracked total (level.rank + 1) fs (fault? place fs p.rest)
        (Parser.chainTail limits total level depth p.operators p.value p.rest) :=
      ih.chainTail fs p.shorter hended
    rw [← hfault] at htail
    exact htail.map id (fun e he => by rw [he]) fun q hq => ⟨_, by rw [hq]⟩

theorem Tracks.tracked_arguments (ih : Tracks limits total bound) (fs : List Frame)
    (hts : ts.length < bound) : Tracked total 0 fs (fault? .arguments (.call :: fs) ts)
      (Parser.arguments limits total depth operators ts) := by
  rw [arguments.eq_def]
  split
  · exact .ok (ended_operator _) rfl
  next hclosing =>
    rw [fault?_arguments hclosing]
    exact ih.someArguments fs hts

theorem Tracks.tracked_primary (ih : Tracks limits total ts.length) (fs : List Frame)
    (hp : ∀ us, ts ≠ .plus :: us) (hm : ∀ us, ts ≠ .minus :: us) :
    Tracked total 0 fs (fault? .operand fs ts) (Parser.primary limits total depth operators ts) := by
  rw [primary.eq_def]
  split
  · exact .ok (ended_operator _) rfl
  · exact .ok (ended_operator _) rfl
  · exact .ok (ended_operator _) rfl
  next us hcorner => exact .unexpected (fault?_corner hcorner)
  next us _ hcolon =>
    exact .ok ⟨.inr ⟨rfl, hcolon⟩, fun level h => absurd h (Nat.not_lt_zero _)⟩ rfl
  next f us =>
    split
    · exact (ih.tracked_arguments fs (Nat.lt_succ_of_lt (Nat.lt_succ_self us.length))).map (Expr.call f)
        (fun e he => by rw [he]) fun p hp => ⟨_, by rw [hp]⟩
    · exact .elsewhere trivial
  · exact .elsewhere trivial
  next us =>
    split
    · have hsum : Tracked total 2 (.group :: fs) (fault? .operand (.group :: fs) us)
          (Parser.chain limits total .sum (depth + 1) operators us) :=
        @Tracks.chain _ _ _ ih .sum _ _ _ (.group :: fs) (by simp)
      change Tracked total 0 fs (fault? .operand (.group :: fs) us) _
      split
      next e he => exact hsum.error he
      next e n vs hshort hq =>
        obtain ⟨place, hended, hfault⟩ := hsum.exists_ended hq
        rw [hfault]
        exact .ok (ended_operator vs) (fault?_closing (hended.place.imp_right And.left))
      next p hclosing hq =>
        obtain ⟨place, hended, hfault⟩ := hsum.exists_ended hq
        rw [hfault]
        obtain ⟨e, n, vs, hshort⟩ := p
        refine .unexpected (hended.fault?_eq_some (fun _ => List.cons_ne_nil _ _) ?_ ?_)
        · rintro ws rfl
          exact (hclosing e n ws hshort rfl).elim
        · intro ws _ gs hgs
          cases hgs
    · exact .elsewhere trivial
  next hnumber htext hrange hcolon haddress hcall hname hopening =>
    -- No operand begins with the first of the tokens.
    refine .unexpected ?_
    cases ts with
    | nil => rfl
    | cons t us =>
      cases t with
      | number n => exact (hnumber n us rfl).elim
      | text s => exact (htext s us rfl).elim
      | address a => exact (haddress a us rfl).elim
      | name f => exact (hname f us rfl).elim
      | plus => exact absurd rfl (hp us)
      | minus => exact absurd rfl (hm us)
      | opening => exact (hopening us rfl).elim
      | star | slash | closing | colon | comma => rfl

theorem Tracks.tracked_signed (ih : Tracks limits total ts.length) (fs : List Frame) :
    Tracked total 0 fs (fault? .operand fs ts) (Parser.signed limits total depth operators ts) := by
  rw [Parser.signed.eq_def]
  split
  next us =>
    split
    · exact (ih.signed fs (Nat.lt_succ_self us.length)).map id
        (fun e he => by rw [he]) fun p hp => ⟨_, by rw [hp]⟩
    · exact .elsewhere trivial
  next us =>
    split
    · exact (ih.signed fs (Nat.lt_succ_self us.length)).map Expr.neg
        (fun e he => by rw [he]) fun p hp => ⟨_, by rw [hp]⟩
    · exact .elsewhere trivial
  next hp hm => exact ih.tracked_primary fs hp hm

theorem Tracks.tracked_someArguments (ih : Tracks limits total ts.length) (fs : List Frame)
    (hchain : Tracked total 2 (.call :: fs) (fault? .operand (.call :: fs) ts)
      (Parser.chain limits total .sum depth operators ts)) :
    Tracked total 0 fs (fault? .operand (.call :: fs) ts)
      (Parser.someArguments limits total depth operators ts) := by
  rw [Parser.someArguments]
  split
  next e he => exact hchain.error he
  next e n us hshort hq =>
    obtain ⟨place, hended, hfault⟩ := hchain.exists_ended hq
    rw [hfault]
    exact .ok (ended_operator us) (fault?_closing (hended.place.imp_right And.left))
  next e n us hshort hq =>
    obtain ⟨place, hended, hfault⟩ := hchain.exists_ended hq
    have hrest : Tracked total 0 fs (fault? .operand (.call :: fs) us)
        (Parser.someArguments limits total depth n us) :=
      ih.someArguments fs (Nat.lt_trans (Nat.lt_succ_self us.length) hshort)
    rw [hfault, fault?_comma (hended.place.imp_right And.left)]
    exact hrest.map (e :: ·) (fun e he => by rw [he]) fun p hp => ⟨_, by rw [hp]⟩
  next p hclosing hcomma hq =>
    obtain ⟨place, hended, hfault⟩ := hchain.exists_ended hq
    rw [hfault]
    obtain ⟨e, n, vs, hshort⟩ := p
    refine .unexpected (hended.fault?_eq_some (fun _ => List.cons_ne_nil _ _) ?_ ?_)
    · rintro ws rfl
      exact (hclosing e n ws hshort rfl).elim
    · rintro ws rfl
      exact (hcomma e n ws hshort rfl).elim

theorem Tracks.mono {bound' : Nat} (h : Tracks limits total bound) (hle : bound' ≤ bound) :
    Tracks limits total bound' where
  chain fs hts := h.chain fs (Nat.lt_of_lt_of_le hts hle)
  chainTail fs hts := h.chainTail fs (Nat.lt_of_lt_of_le hts hle)
  signed fs hts := h.signed fs (Nat.lt_of_lt_of_le hts hle)
  someArguments fs hts := h.someArguments fs (Nat.lt_of_lt_of_le hts hle)

theorem Tracks.tracked_operand (ih : Tracks limits total ts.length) (fs : List Frame) :
    Tracked total level.rank fs (fault? .operand fs ts)
      (Parser.operand limits total level depth operators ts) := by
  cases level with
  | sum =>
    rw [operand_sum]
    refine @Tracks.tracked_chain _ _ .product _ _ _ ih fs ?_
    rw [operand_product]
    exact ih.tracked_signed fs
  | product =>
    rw [operand_product]
    exact ih.tracked_signed fs

theorem tracks (limits : Limits) (total bound : Nat) : Tracks limits total bound := by
-- As for soundness: on the number of tokens, and for one number in the order of the calls.
  induction bound with
  | zero => constructor <;> exact fun _ hts => absurd hts (Nat.not_lt_zero _)
  | succ bound ih =>
    constructor
    case chain =>
      intro level depth operators ts fs hts
      have ih := ih.mono (Nat.le_of_lt_succ hts)
      exact ih.tracked_chain fs (ih.tracked_operand fs)
    case chainTail =>
      intro level depth operators left place ts fs hts hended
      exact (ih.mono (Nat.le_of_lt_succ hts)).tracked_chainTail fs hended
    case signed =>
      intro depth operators ts fs hts
      exact (ih.mono (Nat.le_of_lt_succ hts)).tracked_signed fs
    case someArguments =>
      intro depth operators ts fs hts
      have ih := ih.mono (Nat.le_of_lt_succ hts)
      exact ih.tracked_someArguments fs
        (@Tracks.tracked_chain _ _ .sum _ _ _ ih (.call :: fs) (ih.tracked_operand (.call :: fs)))

end Parser

namespace Token

open Spreadsheet.Parser (Elsewhere)

theorem elsewhere_of_next {c : Char} {cs : List Char} {e : SyntaxError} (h : next c cs = .error e) :
    Elsewhere e := by
  have hword : ∀ w, ofWord w = .error e → Elsewhere e := by
    intro w hw
    rw [ofWord] at hw
    split at hw
    · cases hw
    · split at hw <;> cases hw
      trivial
  have hnumeral : ∀ w, ofNumeral w = .error e → Elsewhere e := by
    intro w hw
    rw [ofNumeral] at hw
    split at hw <;> cases hw
    trivial
  rw [next] at h
  split at h
  · cases h
  split at h
  · split at h <;> cases h
    trivial
  split at h
  · exact hword _ (eq_error_of_map h)
  split at h
  · exact hnumeral _ (eq_error_of_map h)
  · cases h
    trivial

theorem elsewhere_of_tokens {cs : List Char} {e : SyntaxError} (h : tokens cs = .error e) :
    Elsewhere e := by
  fun_induction tokens cs with
  | case1 => cases h
  | case2 _ _ _ ih => exact ih h
  | case3 _ _ _ _ he =>
    cases h
    exact elsewhere_of_next he
  | case4 _ _ _ _ _ _ _ ih => exact ih (eq_error_of_map h)

end Token

namespace Expr

open Grammar Spreadsheet.Parser

theorem exists_fault_of_ofTokens {ts : List Token} {e : SyntaxError} (h : ofTokens ts = .error e) :
    Elsewhere e ∨ ∃ rest, fault? .operand [] ts = some rest ∧ e = unexpected ts.length rest := by
  have htracked : Tracked ts.length 2 [] (fault? .operand [] ts)
      (Parser.chain .formula ts.length .sum 0 0 ts) :=
    @Tracks.chain _ _ _ (tracks .formula ts.length (ts.length + 1)) .sum _ _ _ [] (Nat.lt_succ_self _)
  rw [ofTokens] at h
  split at h
  · cases h
    exact .inl trivial
  split at h
  next e' he =>
    cases h
    rw [he] at htracked
    generalize hfault : fault? .operand [] ts = fault at htracked
    cases htracked with
    | unexpected hrest => exact .inr ⟨_, hrest, rfl⟩
    | elsewhere he => exact .inl he
  next p hp =>
    obtain ⟨place, hended, hfault⟩ := htracked.exists_ended hp
    split at h
    · cases h
    next hrest =>
      cases h
      refine .inr ⟨p.rest, ?_, rfl⟩
      rw [hfault, hended.fault?_eq_some (fun hnil => absurd hnil hrest) (fun _ _ => rfl) nofun]

theorem exists_fault_of_parse {body : List Char} {e : SyntaxError} (h : parse body = .error e)
    (he : ¬Elsewhere e) : ∃ us rest, Token.tokens body = .ok (us ++ rest) ∧
      fault? .operand [] (us ++ rest) = some rest ∧ e = unexpected (us ++ rest).length rest := by
  rw [parse] at h
  split at h
  next e' htokens =>
    cases h
    exact absurd (Token.elsewhere_of_tokens htokens) he
  next ts htokens =>
    obtain ⟨rest, hfault, hrest⟩ := (exists_fault_of_ofTokens h).resolve_left he
    obtain ⟨us, rfl⟩ := suffix_of_fault? hfault
    exact ⟨us, rest, htokens, hfault, hrest⟩

/-- The token that an error points at is the first with which the tokens so far begin no formula. Where an
error says that tokens are missing, those that are there begin a formula and are none. -/
theorem unexpected_at_fault :
    (∀ body p, parse body = .error (.unexpectedToken p) → ∃ ts, Token.tokens body = .ok ts ∧
      p < ts.length ∧ Viable (ts.take p) ∧ ¬Viable (ts.take (p + 1))) ∧
    ∀ body, parse body = .error .unexpectedEnd → ∃ ts, Token.tokens body = .ok ts ∧
      (∃ vs, vs ≠ [] ∧ Derivable (.chain .sum) (ts ++ vs)) ∧ ¬Derivable (.chain .sum) ts := by
  refine ⟨fun body p h => ?_, fun body h => ?_⟩
  · obtain ⟨us, rest, htokens, hfault, hp⟩ := exists_fault_of_parse h id
    cases rest with
    | nil => cases hp
    | cons t rest =>
      have hlength : p = us.length := by
        rw [unexpected, if_neg (List.cons_ne_nil t rest), SyntaxError.unexpectedToken.injEq] at hp
        rw [hp, List.length_append, Nat.add_sub_cancel]
      obtain ⟨hviable, hnot⟩ := viable_of_fault? hfault
      subst hlength
      refine ⟨_, htokens, by simp, ?_, ?_⟩
      · rwa [List.take_left]
      · rw [List.take_length_add_append]
        exact hnot t rfl
  · obtain ⟨us, rest, htokens, hfault, hp⟩ := exists_fault_of_parse h id
    cases rest with
    | cons t rest => cases hp
    | nil =>
      rw [List.append_nil] at htokens
      have hnot : ¬Derivable (.chain .sum) us := by
        intro hderivable
        rw [List.append_nil, hderivable.fault?_eq_none] at hfault
        cases hfault
      obtain ⟨vs, hvs⟩ := (viable_of_fault? hfault).1
      refine ⟨us, htokens, ⟨vs, ?_, hvs⟩, hnot⟩
      rintro rfl
      rw [List.append_nil] at hvs
      exact hnot hvs

theorem unexpected_at_fault_numbers :
    parse ['1', ' ', '2'] = .error (.unexpectedToken 1) ∧
      (Viable [.number 1] ∧ ¬Viable [.number 1, .number 2]) ∧
    parse ['1', '+'] = .error .unexpectedEnd ∧
      (∃ vs, vs ≠ [] ∧ Derivable (.chain .sum) ([.number 1, .plus] ++ vs)) ∧
      ¬Derivable (.chain .sum) [.number 1, .plus] := by
  have hpair : (parse ['1', ' ', '2']).map (fun _ => ()) = .error (.unexpectedToken 1) := by
    decide +kernel
  have hsum : (parse ['1', '+']).map (fun _ => ()) = .error .unexpectedEnd := by
    decide +kernel
  have hpair' : Token.tokens ['1', ' ', '2'] = .ok [.number 1, .number 2] := by decide +kernel
  have hsum' : Token.tokens ['1', '+'] = .ok [.number 1, .plus] := by decide +kernel
  refine ⟨eq_error_of_map hpair, ?_, eq_error_of_map hsum, ?_⟩
  · obtain ⟨ts, hts, -, hviable, hnot⟩ := unexpected_at_fault.1 _ _ (eq_error_of_map hpair)
    cases hpair'.symm.trans hts
    exact ⟨hviable, hnot⟩
  · obtain ⟨ts, hts, hall⟩ := unexpected_at_fault.2 _ (eq_error_of_map hsum)
    cases hsum'.symm.trans hts
    exact hall

end Expr

end Spreadsheet
