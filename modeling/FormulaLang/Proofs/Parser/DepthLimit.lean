import FormulaLang.Proofs.Parser.Language

/-!
# Limited and unlimited parses

A limit on the nesting of factors never changes what a parse finds. It stops the parse where a
factor starts inside too many open ones, and there only. The open factors are counted on the
grammar and not on the parser's stack; that both counts agree is the invariant here.
-/
namespace FormulaLang

/-- The tokens are the beginning of a phrase up to one of its factors, and so many factors of
the phrase are open there. A negation, a group and a call's arguments open one factor each; the
operands and arguments already complete open none. -/
inductive Opens : Phrase → List Token → Nat → Prop where
  | here : Opens .factor [] 0
  | negation {ts n} : Opens .factor ts n → Opens .factor (.minus :: ts) (n + 1)
  | group {ts n} : Opens .expression ts n → Opens .factor (.openParen :: ts) (n + 1)
  | call {name ts n} : Opens .arguments ts n →
      Opens .factor (.identifier name :: .openParen :: ts) (n + 1)
  | firstFactor {ts n} : Opens .factor ts n → Opens .term ts n
  | laterFactor {ts us l token op n} : Derives .term ts [l] → Joins .term token op →
      Opens .factor us n → Opens .term (ts ++ token :: us) n
  | firstTerm {ts n} : Opens .term ts n → Opens .expression ts n
  | laterTerm {ts us l token op n} : Derives .expression ts [l] → Joins .expression token op →
      Opens .term us n → Opens .expression (ts ++ token :: us) n
  | firstArgument {ts n} : Opens .expression ts n → Opens .arguments ts n
  | laterArgument {ts us e n} : Derives .expression ts [e] → Opens .arguments us n →
      Opens .arguments (ts ++ .comma :: us) n

namespace Parser

/-- A factor starts with the lexeme: an operand is due, and the lexeme does not close an empty
call instead. -/
def State.Starts (state : State) (l : Lexeme) : Prop :=
  match state.phase with
  | .operand => True
  | .opened _ _ => l.token ≠ .closeParen
  | _ => False

@[simp] theorem depth_nil : depth [] = 0 := rfl
@[simp] theorem depth_negation (stack) : depth (.negation :: stack) = depth stack + 1 :=
  List.countP_cons_of_pos rfl
@[simp] theorem depth_group (p stack) : depth (.group p :: stack) = depth stack + 1 :=
  List.countP_cons_of_pos rfl
@[simp] theorem depth_call (n p args stack) : depth (.call n p args :: stack) = depth stack + 1 :=
  List.countP_cons_of_pos rfl
@[simp] theorem depth_operation (op lhs stack) :
    depth (.operation op lhs :: stack) = depth stack :=
  List.countP_cons_of_neg nofun

theorem Due.opens {p : Phrase} {ts us : List Token} {fs : List Frame} {n : Nat}
    (h : Due p ts fs) (hn : Opens p us n) : Opens .expression (ts ++ us) (depth fs + n) := by
  induction h generalizing us n with
  | start => simpa using hn
  | term _ ih => exact ih (.firstTerm hn)
  | factor _ ih => exact ih (.firstFactor hn)
  | sum _ hl hj ih => simpa using ih (.laterTerm hl hj hn)
  | product _ hl hj ih => simpa using ih (.laterFactor hl hj hn)
  | negation _ ih => simpa [Nat.add_assoc, Nat.add_comm] using ih (.negation hn)
  | group _ ih => simpa [Nat.add_assoc, Nat.add_comm] using ih (.group hn)
  | @call _ _ name _ _ ih => simpa [Nat.add_assoc, Nat.add_comm] using ih (@Opens.call name _ _ hn)
  | laterArgument _ he ih => simpa using ih (.laterArgument he hn)
  | argument _ ih => exact ih (.firstArgument hn)

/-- The machine consumes the beginning of a phrase up to a factor, and stands as much deeper
then as factors are open. -/
def Reaches (p : Phrase) (ts : List Token) (n : Nat) : Prop :=
  ∀ ls state frames, tokens ls = ts → state.awaiting? = some frames → Fits p frames →
    ∃ t frames', consume ⟨none⟩ state ls = some t ∧ t.awaiting? = some frames' ∧
      depth frames' = depth frames + n

theorem reaches_of_opens {p : Phrase} {ts : List Token} {n : Nat} (h : Opens p ts n) :
    Reaches p ts n := by
  induction h with
  | here =>
    intro ls state frames ht ha _
    cases List.map_eq_nil_iff.mp ht
    exact ⟨state, frames, rfl, ha, rfl⟩
  | negation _ ih =>
    intro ls state frames ht ha _
    obtain ⟨xs, hx, hc⟩ := enter_negation ha ht
    obtain ⟨t, frames', ht, hf, hd⟩ := ih xs ⟨.negation :: frames, .operand⟩ _ hx rfl trivial
    refine ⟨t, frames', hc.trans ht, hf, ?_⟩
    rw [hd, depth_negation]
    omega
  | group _ ih =>
    intro ls state frames ht ha _
    obtain ⟨xs, place, hx, hc⟩ := enter_group ha ht
    obtain ⟨t, frames', ht, hf, hd⟩ :=
      ih xs ⟨.group place :: frames, .operand⟩ _ hx rfl fun _ _ => rfl
    refine ⟨t, frames', hc.trans ht, hf, ?_⟩
    rw [hd, depth_group]
    omega
  | @call name _ _ _ ih =>
    intro ls state frames ht ha _
    obtain ⟨xs, place, hx, hc⟩ := enter_call ha ht
    obtain ⟨t, frames', ht, hf, hd⟩ :=
      ih xs ⟨frames, .opened name place⟩ _ hx rfl ⟨_, _, _, _, rfl⟩
    refine ⟨t, frames', hc.trans ht, hf, ?_⟩
    rw [hd, depth_call]
    omega
  | firstFactor _ ih =>
    intro ls state frames ht ha _
    exact ih ls state frames ht ha trivial
  | @laterFactor _ _ lhs _ op _ hl hj _ ih =>
    intro ls state frames ht ha hf
    obtain ⟨ys, hy, hc⟩ := enter_operand (consumable_of_derives hl) hj ha hf ht
    obtain ⟨t, frames', ht, hf', hd⟩ :=
      ih ys ⟨.operation op lhs :: frames, .operand⟩ _ hy rfl trivial
    exact ⟨t, frames', hc.trans ht, hf', by rw [hd, depth_operation]⟩
  | firstTerm _ ih =>
    intro ls state frames ht ha hf
    exact ih ls state frames ht ha hf.term
  | @laterTerm _ _ lhs _ op _ hl hj _ ih =>
    intro ls state frames ht ha hf
    obtain ⟨ys, hy, hc⟩ := enter_operand (consumable_of_derives hl) hj ha hf ht
    obtain ⟨t, frames', ht, hf', hd⟩ :=
      ih ys ⟨.operation op lhs :: frames, .operand⟩ _ hy rfl (fits_sum hj)
    exact ⟨t, frames', hc.trans ht, hf', by rw [hd, depth_operation]⟩
  | firstArgument _ ih =>
    intro ls state frames ht ha hf
    obtain ⟨name, place, args, outer, rfl⟩ := hf
    exact ih ls state _ ht ha fun _ _ => rfl
  | @laterArgument _ _ e _ he _ ih =>
    intro ls state frames ht ha hf
    obtain ⟨name, place, args, outer, rfl⟩ := hf
    obtain ⟨ys, hy, hc⟩ := enter_argument (consumable_of_derives he) ha ht
    obtain ⟨t, frames', ht, hf, hd⟩ :=
      ih ys ⟨.call name place (e :: args) :: outer, .operand⟩ _ hy rfl ⟨_, _, _, _, rfl⟩
    exact ⟨t, frames', hc.trans ht, hf, by simpa using hd⟩

theorem opens_iff_depth {before : List Lexeme} {t : State} {frames : List Frame} {n : Nat}
    (consumed : consume ⟨none⟩ .initial before = some t) (ha : t.awaiting? = some frames) :
    Opens .expression (tokens before) n ↔ n = depth frames := by
  constructor
  · intro h
    obtain ⟨u, frames', hc, hf, hd⟩ :=
      reaches_of_opens h before .initial [] rfl rfl fun _ _ => rfl
    cases consumed.symm.trans hc
    cases ha.symm.trans hf
    rw [hd, depth_nil]
    omega
  · rintro rfl
    simpa using ((Reads.initial.consume consumed).awaiting ha).opens .here

/-! ## Steps and prefixes under a limit -/

section

variable {state t : State} {l : Lexeme} {frames : List Frame} {limit : Nat}

theorem State.Starts.awaiting (h : state.Starts l) : ∃ frames, state.awaiting? = some frames ∧
    ∀ options, step options state l = startOperand options frames l := by
  obtain ⟨stack, phase⟩ := state
  cases phase with
  | operand => exact ⟨stack, rfl, fun _ => rfl⟩
  | opened n p => exact ⟨_, rfl, fun _ => step_awaiting rfl h⟩
  | named n => exact h.elim
  | complete e => exact h.elim

/-- Only where a factor starts does a step look at the options. -/
theorem step_of_not_starts (h : ¬ state.Starts l) (options options' : ParseOptions) :
    step options state l = step options' state l := by
  obtain ⟨stack, phase⟩ := state
  cases phase with
  | operand => exact absurd trivial h
  | opened n p =>
    have hl : l.token = .closeParen := Classical.not_not.mp h
    simp [step, hl]
  | named n => rfl
  | complete e => rfl

theorem step_limit (h : ∀ frames, state.Starts l → state.awaiting? = some frames →
    depth frames < limit) : step ⟨some limit⟩ state l = step ⟨none⟩ state l := by
  by_cases hs : state.Starts l
  · obtain ⟨frames, ha, he⟩ := hs.awaiting
    have hd : ¬ limit ≤ depth frames := Nat.not_le.mpr (h frames hs ha)
    rw [he, he]
    simp [startOperand, exceeds, Option.filter, hd]
  · exact step_of_not_starts hs _ _

theorem step_tooDeep (hs : state.Starts l) (ha : state.awaiting? = some frames)
    (hd : limit ≤ depth frames) :
    step ⟨some limit⟩ state l = .refuse (.tooDeep limit l.first) := by
  obtain ⟨frames', ha', he⟩ := hs.awaiting
  cases ha.symm.trans ha'
  rw [he]
  simp [startOperand, exceeds, Option.filter, hd]

theorem consume_limit {ls : List Lexeme}
    (h : ∀ xs x ys u frames, ls = xs ++ x :: ys → consume ⟨none⟩ state xs = some u →
      u.Starts x → u.awaiting? = some frames → depth frames < limit) :
    consume ⟨some limit⟩ state ls = consume ⟨none⟩ state ls := by
  induction ls generalizing state with
  | nil => rfl
  | cons l ls ih =>
    have hs := step_limit fun frames => h [] l ls state frames rfl rfl
    unfold consume
    rw [hs]
    split
    next u hu =>
      apply ih
      intro xs x ys v frames hl hc
      exact h (l :: xs) x ys v frames (by rw [hl]; rfl) (by rw [consume_shift hu, hc])
    next => rfl

theorem run_congr {τ : Type} [TokenSource τ] {options options' : ParseOptions} {feed : Feed τ}
    (h : step options state l = step options' state l)
    (stuck : ∀ u, step options' state l ≠ .shift u) :
    run options state l feed = run options' state l feed := by
  cases ha : step options' state l with
  | shift u => exact absurd ha (stuck u)
  | accept e => rw [run_accept (h.trans ha), run_accept ha]
  | refuse error => rw [run_refuse (h.trans ha), run_refuse ha]
  | reject error => rw [run_reject (h.trans ha), run_reject ha]

end

end Parser

open FormulaLang.Parser

variable {τ : Type} [TokenSource τ]

/-- The unlimited parse consumes `before`, has `next` ahead of it and starts a factor there. -/
def StartsFactor (source : τ) (before : List Lexeme) (next : Lexeme) : Prop :=
  (∃ rest, Delivers source (before ++ [next]) rest) ∧
    ∃ t, consume ⟨none⟩ .initial before = some t ∧ t.Starts next

/-- The unlimited parse starts a factor while `limit` factors or more are open. -/
def StartsTooDeep (source : τ) (limit : Nat) (before : List Lexeme) (next : Lexeme) : Prop :=
  StartsFactor source before next ∧ ∃ n, limit ≤ n ∧ Opens .expression (tokens before) n

def FirstTooDeep (source : τ) (limit : Nat) (before : List Lexeme) (next : Lexeme) : Prop :=
  StartsTooDeep source limit before next ∧
    ∀ earlier l, StartsTooDeep source limit earlier l → before.length ≤ earlier.length

section

variable {source rest : τ} {before : List Lexeme} {next : Lexeme} {limit : Nat}

theorem StartsFactor.opens (h : StartsFactor source before next) :
    ∃ t frames, consume ⟨none⟩ .initial before = some t ∧ t.Starts next ∧
      t.awaiting? = some frames ∧
      ∀ n, Opens .expression (tokens before) n ↔ n = depth frames := by
  obtain ⟨-, t, hc, hs⟩ := h
  obtain ⟨frames, ha, -⟩ := hs.awaiting
  exact ⟨t, frames, hc, hs, ha, fun n => opens_iff_depth hc ha⟩

theorem StartsTooDeep.of_depth {t : State} {frames : List Frame}
    (delivered : Delivers source (before ++ [next]) rest)
    (consumed : consume ⟨none⟩ .initial before = some t) (hs : t.Starts next)
    (ha : t.awaiting? = some frames) (hd : limit ≤ depth frames) :
    StartsTooDeep source limit before next :=
  ⟨⟨⟨rest, delivered⟩, t, consumed, hs⟩, _, hd, (opens_iff_depth consumed ha).mpr rfl⟩

theorem consume_limit_eq (delivered : Delivers source before rest)
    (h : ∀ xs x ys, before = xs ++ x :: ys → ¬ StartsTooDeep source limit xs x) :
    consume ⟨some limit⟩ .initial before = consume ⟨none⟩ .initial before := by
  apply consume_limit
  intro xs x ys u frames hl hc hs ha
  have hp := delivered
  rw [hl, List.append_cons] at hp
  obtain ⟨middle, hx, -⟩ := hp.split
  exact Nat.not_le.mp fun hd => h xs x ys hl (.of_depth hx hc hs ha hd)

theorem parse_unlimited (h : ∀ before next, ¬ StartsTooDeep source limit before next) :
    parse ⟨some limit⟩ source = parse ⟨none⟩ source := by
  obtain ⟨ls, rest, t, hd, hc, he⟩ := parse_ends ⟨none⟩ .initial source
  have hl : consume ⟨some limit⟩ .initial ls = some t :=
    (consume_limit_eq hd fun xs x _ _ => h xs x).trans hc
  rcases he with ⟨failure, rest', hf⟩ | ⟨l, rest', hn, hs⟩
  · rw [parse_failure hd hl hf, parse_failure hd hc hf]
  · have hdl := hd.snoc hn
    have hstep : step ⟨some limit⟩ t l = step ⟨none⟩ t l := by
      apply step_limit
      intro frames hst ha
      exact Nat.not_le.mp fun hle => h ls l (.of_depth hdl hc hst ha hle)
    rw [parse_eq_run hdl hl, parse_eq_run hdl hc, run_congr hstep hs]

theorem parse_tooDeep (h : FirstTooDeep source limit before next) :
    (parse ⟨some limit⟩ source).result = .error (.tooDeep limit next.first) := by
  obtain ⟨⟨hst, n, hle, hn⟩, first⟩ := h
  obtain ⟨t, frames, hc, hs, ha, ho⟩ := hst.opens
  obtain ⟨⟨rest, hd⟩, -⟩ := hst
  obtain ⟨middle, hb, -⟩ := hd.split
  have hl : consume ⟨some limit⟩ .initial before = some t := by
    rw [consume_limit_eq hb, hc]
    intro xs x ys he hx
    have hlen := first xs x hx
    rw [he, List.length_append, List.length_cons] at hlen
    omega
  rw [(ho n).mp hn] at hle
  exact parse_refuse hd hl (step_tooDeep hs ha hle)

theorem StartsTooDeep.first (h : StartsTooDeep source limit before next) :
    ∃ before next, FirstTooDeep source limit before next := by
  induction hm : before.length using Nat.strongRecOn generalizing before next with
  | ind m ih =>
    by_cases hs : ∃ xs x, StartsTooDeep source limit xs x ∧ xs.length < m
    · obtain ⟨xs, x, hx, hlt⟩ := hs
      exact ih _ hlt hx rfl
    · refine ⟨before, next, h, fun xs x hx => ?_⟩
      rw [hm]
      exact Nat.not_lt.mp fun hlt => hs ⟨xs, x, hx, hlt⟩

theorem parse_unlimited_not_tooDeep (n : Nat) (place : Position) :
    (parse ⟨none⟩ source).result ≠ .error (.tooDeep n place) := by
  intro h
  obtain ⟨ls, rest, t, hd, hc, ⟨failure, rest', hf⟩ | ⟨l, rest', hn, hs⟩⟩ :=
    parse_ends ⟨none⟩ .initial source
  · rw [parse_failure hd hc hf] at h
    cases h
  · rcases stuck_blames hc hs with ⟨e, -, -, ha⟩ | ⟨error, hb, ⟨-, ha⟩ | ⟨-, ha⟩⟩
    · cases (parse_accept (hd.snoc hn) hc ha).symm.trans h
    · cases (parse_refuse (hd.snoc hn) hc ha).symm.trans h
      cases hb
    · rw [parse_reject (hd.snoc hn) hc ha] at h
      split at h
      · cases h
        cases hb
      · cases h

theorem StartsTooDeep.mono {larger : Nat} (h : StartsTooDeep source larger before next)
    (hle : limit ≤ larger) : StartsTooDeep source limit before next := by
  obtain ⟨hst, n, hn, ho⟩ := h
  exact ⟨hst, n, Nat.le_trans hle hn, ho⟩

end

/-- A limit changes nothing unless the unlimited parse starts a factor inside that many open
ones, a number that the lexemes before determine. Then it stops the parse in front of the first
such factor. So what a limit lets pass, every larger limit treats alike. -/
theorem depth_limit_only_cuts (source : τ) (limit : Nat) :
    (∀ before next, StartsFactor source before next →
      ∃ n, ∀ m, Opens .expression (tokens before) m ↔ m = n) ∧
    ((¬ ∃ before next, StartsTooDeep source limit before next) →
      parse ⟨some limit⟩ source = parse ⟨none⟩ source) ∧
    ((∃ before next, StartsTooDeep source limit before next) →
      ∃ before next, FirstTooDeep source limit before next ∧
        (parse ⟨some limit⟩ source).result = .error (.tooDeep limit next.first)) ∧
    (∀ n place, (parse ⟨some limit⟩ source).result = .error (.tooDeep n place) →
      ∃ before next, FirstTooDeep source limit before next ∧ n = limit ∧ place = next.first) ∧
    ∀ larger, limit ≤ larger →
      (∀ n place, (parse ⟨some limit⟩ source).result ≠ .error (.tooDeep n place)) →
      (parse ⟨some larger⟩ source).result = (parse ⟨some limit⟩ source).result := by
  have hsame : ∀ limit, (¬ ∃ before next, StartsTooDeep source limit before next) →
      parse ⟨some limit⟩ source = parse ⟨none⟩ source :=
    fun limit h => parse_unlimited fun before next hd => h ⟨before, next, hd⟩
  refine ⟨fun before next h => ?_, hsame limit, ?_, fun n place h => ?_, fun larger hle h => ?_⟩
  · obtain ⟨t, frames, -, -, -, ho⟩ := h.opens
    exact ⟨depth frames, ho⟩
  · rintro ⟨before, next, h⟩
    obtain ⟨xs, x, hx⟩ := h.first
    exact ⟨xs, x, hx, parse_tooDeep hx⟩
  · by_cases hd : ∃ before next, StartsTooDeep source limit before next
    · obtain ⟨before, next, hd⟩ := hd
      obtain ⟨xs, x, hx⟩ := hd.first
      cases h.symm.trans (parse_tooDeep hx)
      exact ⟨xs, x, hx, rfl, rfl⟩
    · rw [hsame limit hd] at h
      exact absurd h (parse_unlimited_not_tooDeep n place)
  · have hd : ¬ ∃ before next, StartsTooDeep source limit before next := by
      rintro ⟨before, next, hd⟩
      obtain ⟨xs, x, hx⟩ := hd.first
      exact h _ _ (parse_tooDeep hx)
    have hlarger : ¬ ∃ before next, StartsTooDeep source larger before next := by
      rintro ⟨before, next, hl⟩
      exact hd ⟨before, next, hl.mono hle⟩
    rw [hsame limit hd, hsame larger hlarger]

def nestedCall : List Lexeme :=
  placed [.identifier "f", .openParen, .minus, .openParen, .identifier "x", .closeParen,
    .closeParen]

/-- The call, the negation and the group are open where its last operand starts. -/
theorem parse_tooDeep_nestedCall : ∃ place,
    (parse ⟨some 3⟩ (TokenScript.ofLexemes nestedCall ⟨0, 7⟩)).result =
      .error (.tooDeep 3 place) := by
  have hd : Delivers (TokenScript.ofLexemes nestedCall ⟨0, 7⟩)
      (nestedCall.take 4 ++ [.single (.identifier "x") ⟨0, 4⟩]) _ :=
    TokenScript.delivers_prepared (nestedCall.take 5) ((nestedCall.drop 5).map .ok) ⟨0, 7⟩
  have hexpr {ts : List Token} {n : Nat} (h : Opens .factor ts n) : Opens .expression ts n :=
    .firstTerm (.firstFactor h)
  have ho : Opens .expression (tokens (nestedCall.take 4)) 3 :=
    hexpr (.call (.firstArgument (hexpr (.negation (.group (hexpr .here))))))
  obtain ⟨before, next, -, hr⟩ := (depth_limit_only_cuts _ 3).2.2.1
    ⟨_, _, ⟨⟨_, hd⟩, _, rfl, trivial⟩, 3, Nat.le_refl 3, ho⟩
  exact ⟨_, hr⟩

end FormulaLang
