import ScriptMinifier.Proofs.JsonStrings

/-!
# Objects in JSON

A JSON text is a row of tokens, and blanks may stand in front of each of them.
`Reads` says that a reader takes such a row off a text, however it is spaced,
and leaves what is behind it. An object is read entry by entry: what one entry
makes of the state so far is `Enters`, and a whole object follows from its
entries.
-/

namespace ScriptMinifier.Json

variable {α β σ : Type}

/-! ## Tokens -/

def AreBlanks (s : Text) : Prop := ∀ c ∈ s, isJsonBlank c = true

/-- Tokens in a row, with blanks in front of each. -/
inductive Spaced : List Text → Text → Prop
  | nil : Spaced [] []
  | cons {blanks token s : Text} {tokens : List Text}
      (hblanks : AreBlanks blanks) (h : Spaced tokens s) :
      Spaced (token :: tokens) (blanks ++ (token ++ s))

theorem spaced_flatten (tokens : List Text) : Spaced tokens tokens.flatten := by
  induction tokens with
  | nil => exact .nil
  | cons token tokens ih =>
      have h : AreBlanks [] := fun c hc => absurd hc List.not_mem_nil
      exact .cons h ih

theorem Spaced.exists_append {tokens more : List Text} {s : Text}
    (h : Spaced (tokens ++ more) s) : ∃ front back,
      s = front ++ back ∧ Spaced tokens front ∧ Spaced more back := by
  induction tokens generalizing s with
  | nil => exact ⟨[], s, rfl, .nil, h⟩
  | cons token tokens ih =>
      cases h with
      | @cons blanks _ s _ hblanks h =>
          obtain ⟨front, back, rfl, hfront, hback⟩ := ih h
          refine ⟨blanks ++ (token ++ front), back, ?_, .cons hblanks hfront,
            hback⟩
          simp only [List.append_assoc]

theorem Spaced.length_le {tokens : List Text} {s : Text} (h : Spaced tokens s) :
    tokens.flatten.length ≤ s.length := by
  induction h with
  | nil => exact Nat.le_refl 0
  | cons hblanks h ih =>
      simp only [List.flatten_cons, List.length_append]
      omega

/-! ## Readers -/

/-- The reader takes the tokens off a text and gives the value. -/
def Reads (r : Reader α) (tokens : List Text) (value : α) : Prop :=
  ∀ s rest, Spaced tokens s → r.run (s ++ rest) = .ok (value, rest)

theorem run_bind_eq {r : Reader α} {f : α → Reader β} {s t : Text} {a : α}
    (h : r.run s = .ok (a, t)) : (r >>= f).run s = (f a).run t := by
  rw [StateT.run_bind, h]
  rfl

theorem run_advance (c : Char) (s : Text) :
    advance.run (c :: s) = .ok ((), s) := rfl

theorem Reads.pure (a : α) : Reads (pure a) [] a := by
  intro s rest h
  cases h
  rfl

theorem Reads.bind {r : Reader α} {f : α → Reader β} {tokens more : List Text}
    {a : α} {b : β} (hr : Reads r tokens a) (hf : Reads (f a) more b) :
    Reads (r >>= f) (tokens ++ more) b := by
  intro s rest h
  obtain ⟨front, back, rfl, hfront, hback⟩ := h.exists_append
  rw [List.append_assoc, run_bind_eq (hr _ _ hfront)]
  exact hf _ _ hback

theorem Reads.map {r : Reader α} {tokens : List Text} {a : α}
    (h : Reads r tokens a) (f : α → β) :
    Reads (do return f (← r)) tokens (f a) := by
  have hpure := h.bind (f := fun a => Pure.pure (f a)) (.pure (f a))
  rwa [List.append_nil] at hpure

theorem Reads.run_token {r : Reader α} {token : Text} {a : α}
    (h : Reads r [token] a) (rest : Text) :
    r.run (token ++ rest) = .ok (a, rest) := by
  have hspaced := spaced_flatten [token]
  rw [List.flatten_singleton] at hspaced
  exact h token rest hspaced

/-! ## The start of a token -/

theorem run_peek {blanks s : Text} {c : Char} (hblanks : AreBlanks blanks)
    (hc : isJsonBlank c = false) :
    peek.run (blanks ++ c :: s) = .ok (some c, c :: s) := by
  have hdrop : (blanks ++ c :: s).dropWhile isJsonBlank = c :: s := by
    rw [List.dropWhile_append_of_pos hblanks, List.dropWhile_cons_of_neg]
    simpa using hc
  show Except.ok (((blanks ++ c :: s).dropWhile isJsonBlank).head?,
    (blanks ++ c :: s).dropWhile isJsonBlank) = _
  rw [hdrop]
  rfl

theorem run_valueStart {blanks s : Text} {c : Char} (hblanks : AreBlanks blanks)
    (hc : isJsonBlank c = false) :
    valueStart.run (blanks ++ c :: s) = .ok (c, c :: s) := by
  rw [valueStart, run_bind_eq (run_peek hblanks hc)]
  rfl

/-- A reader that looks at the first character of a token. -/
theorem reads_peek {k : Option Char → Reader α} {c : Char} {t : Text}
    {tokens : List Text} {a : α} (hc : isJsonBlank c = false)
    (h : ∀ s rest, Spaced tokens s →
      (k (some c)).run (c :: (t ++ (s ++ rest))) = .ok (a, rest)) :
    Reads (peek >>= k) ((c :: t) :: tokens) a := by
  intro s rest hs
  cases hs with
  | cons hblanks hs =>
      simp only [List.append_assoc, List.cons_append]
      rw [run_bind_eq (run_peek hblanks hc)]
      exact h _ _ hs

theorem reads_valueStart {k : Char → Reader α} {c : Char} {t : Text}
    {tokens : List Text} {a : α} (hc : isJsonBlank c = false)
    (h : ∀ s rest, Spaced tokens s →
      (k c).run (c :: (t ++ (s ++ rest))) = .ok (a, rest)) :
    Reads (valueStart >>= k) ((c :: t) :: tokens) a := by
  intro s rest hs
  cases hs with
  | cons hblanks hs =>
      simp only [List.append_assoc, List.cons_append]
      rw [run_bind_eq (run_valueStart hblanks hc)]
      exact h _ _ hs

/-! ## Strings and colons -/

theorem run_advance_writeString (text rest : Text) :
    advance.run (writeString text ++ rest) =
      .ok ((), text.flatMap escapeChar ++ '"' :: rest) := by
  show Except.ok ((), text.flatMap escapeChar ++ ['"'] ++ rest) = _
  rw [List.append_assoc]
  rfl

theorem reads_string (expected : String) (text : Text) :
    Reads (string expected) [writeString text] text := by
  apply reads_valueStart (by decide)
  intro s rest hs
  cases hs
  show (advance >>= fun _ => stringBody).run (writeString text ++ rest) = _
  rw [run_bind_eq (run_advance_writeString text rest)]
  exact run_stringBody text rest

theorem reads_colon : Reads colon [[':']] () := by
  apply reads_peek (by decide)
  intro s rest hs
  cases hs
  rfl

/-- A string that nobody asks for is passed over. -/
theorem reads_skipValue (text : Text) :
    Reads skipValue [writeString text] () := by
  intro s rest hs
  show (skipFrom .value [] (2 * (s ++ rest).length + 1 + 1)).run (s ++ rest) = _
  generalize 2 * (s ++ rest).length = fuel
  revert s rest
  apply reads_valueStart (by decide)
  intro s rest hs
  cases hs
  have hstart : (skipStart '"').run
      (writeString text ++ rest) = .ok (none, rest) := by
    show (advance >>= fun _ => skipString >>= fun _ => _).run _ = _
    rw [run_bind_eq (run_advance_writeString text rest)]
    exact run_bind_eq (run_skipString text rest)
  exact run_bind_eq hstart

/-! ## Entries -/

/-- The tokens of an entry, given its key and the tokens of its value. -/
def entryTokens (e : Text × List Text) : List Text :=
  writeString e.1 :: [':'] :: e.2

/-- The tokens of the entries that are left in an object. -/
def entriesTokens (first : Bool) : List (Text × List Text) → List Text
  | [] => []
  | e :: es =>
      (if first then [] else [[',']]) ++
        (entryTokens e ++ entriesTokens false es)

/-- The tokens of an object. -/
def objectTokens (es : List (Text × List Text)) : List Text :=
  ['\x7b'] :: (entriesTokens true es ++ [['\x7d']])

theorem reads_nextKey? (first : Bool) (key : Text) :
    Reads (nextKey? first)
      ((if first then [] else [[',']]) ++ [writeString key]) (some key) := by
  have hbody (rest : Text) : (advance >>= fun _ => do
      return some (← stringBody)).run (writeString key ++ rest) =
        .ok (some key, rest) := by
    rw [run_bind_eq (run_advance_writeString key rest)]
    exact run_bind_eq (run_stringBody key rest)
  cases first with
  | true =>
      apply reads_peek (by decide)
      intro s rest hs
      cases hs
      exact hbody rest
  | false =>
      apply reads_peek (by decide)
      intro s rest hs
      show (advance >>= fun _ =>
        peek >>= fun _ => _).run (',' :: (s ++ rest)) = _
      rw [run_bind_eq (run_advance _ _)]
      revert s rest
      apply reads_peek (by decide)
      intro s rest hs
      cases hs
      exact hbody rest

theorem run_nextKey?_end {blanks s : Text} (hblanks : AreBlanks blanks)
    (first : Bool) :
    (nextKey? first).run (blanks ++ '\x7d' :: s) = .ok (none, '\x7d' :: s) := by
  rw [nextKey?, run_bind_eq (run_peek hblanks (by decide))]
  rfl

/-- The entries lead from one state to another. -/
inductive Enters (entry : σ → Text → Reader σ) :
    σ → List (Text × List Text) → σ → Prop
  | nil {state : σ} : Enters entry state [] state
  | cons {state next last : σ} {e : Text × List Text}
      {es : List (Text × List Text)}
      (he : Reads (entry state e.1) ([':'] :: e.2) next)
      (hes : Enters entry next es last) : Enters entry state (e :: es) last

theorem reads_entries {entry : σ → Text → Reader σ} {state last : σ}
    {es : List (Text × List Text)} (h : Enters entry state es last)
    (first : Bool) {fuel : Nat} (hfuel : es.length < fuel) :
    Reads (entries entry first state fuel)
      (entriesTokens first es ++ [['\x7d']]) last := by
  induction h generalizing first fuel with
  | nil =>
      obtain ⟨fuel, rfl⟩ := Nat.exists_eq_add_of_lt hfuel
      intro s rest hs
      cases hs with
      | cons hblanks hs =>
          cases hs
          rw [entries, List.append_assoc]
          exact run_bind_eq (run_nextKey?_end hblanks first)
  | @cons state next last e es he hes ih =>
      obtain ⟨fuel, rfl⟩ := Nat.exists_eq_succ_of_ne_zero
        (Nat.ne_of_gt (Nat.zero_lt_of_lt hfuel))
      have hmore := ih false (Nat.lt_of_succ_lt_succ hfuel)
      have htokens : entriesTokens first (e :: es) ++ [['\x7d']] =
          ((if first then [] else [[',']]) ++ [writeString e.1]) ++
            (([':'] :: e.2) ++ (entriesTokens false es ++ [['\x7d']])) := by
        simp [entriesTokens, entryTokens]
      rw [htokens, entries]
      exact (reads_nextKey? first e.1).bind (he.bind hmore)

/-- The entries take no more steps than there are characters. -/
theorem length_le_entriesTokens (first : Bool) (es : List (Text × List Text)) :
    es.length ≤ (entriesTokens first es).flatten.length := by
  induction es generalizing first with
  | nil => exact Nat.zero_le _
  | cons e es ih =>
      have hes := ih false
      simp only [entriesTokens, entryTokens, writeString, List.flatten_append,
        List.flatten_cons, List.length_append, List.length_cons]
      omega

/-- An object behind its brace. -/
theorem reads_object {entry : σ → Text → Reader σ} {start last : σ}
    {es : List (Text × List Text)} (h : Enters entry start es last) :
    Reads (object entry start) (entriesTokens true es ++ [['\x7d']]) last := by
  intro s rest hs
  have hlength := hs.length_le
  have hes := length_le_entriesTokens true es
  rw [List.flatten_append, List.length_append] at hlength
  show (entries entry true start ((s ++ rest).length + 1)).run (s ++ rest) = _
  apply reads_entries h true _ s rest hs
  rw [List.length_append]
  omega

/-! ## Whole texts -/

/-- A text of these tokens, with blanks in front of each and behind the last. -/
def Written (tokens : List Text) (text : Text) : Prop :=
  ∃ s blanks, Spaced tokens s ∧ AreBlanks blanks ∧ text = s ++ blanks

theorem Reads.whole_eq {r : Reader α} {tokens : List Text} {a : α} {text : Text}
    (h : Reads r tokens a) (htext : Written tokens text) :
    r.whole text = .ok a := by
  obtain ⟨s, blanks, hs, hblanks, rfl⟩ := htext
  have hdrop : blanks.dropWhile isJsonBlank = [] := by
    rw [← List.append_nil blanks, List.dropWhile_append_of_pos hblanks]
    rfl
  rw [Reader.whole, h s blanks hs]
  show (if blanks.dropWhile isJsonBlank = [] then _ else _) = _
  rw [if_pos hdrop]
  rfl

theorem written_flatten (tokens : List Text) : Written tokens tokens.flatten :=
  ⟨tokens.flatten, [], spaced_flatten tokens,
    fun _ hc => absurd hc List.not_mem_nil, (List.append_nil _).symm⟩

theorem flatten_entriesTokens (es : List (Text × List Text)) :
    (entriesTokens true es).flatten = List.intercalate [',']
      (es.map fun e => writeString e.1 ++ ':' :: e.2.flatten) := by
  induction es with
  | nil => rfl
  | cons e es ih =>
      cases es with
      | nil => simp [entriesTokens, entryTokens]
      | cons e' es =>
          rw [List.map_cons] at ih
          rw [List.map_cons, List.map_cons, List.intercalate_cons_cons, ← ih]
          simp [entriesTokens, entryTokens]

/-- The writer puts no blanks between the tokens of an object. -/
theorem flatten_objectTokens (es : List (Text × List Text)) :
    (objectTokens es).flatten =
      writeObject (es.map fun e => (e.1, e.2.flatten)) := by
  rw [objectTokens, List.flatten_cons, List.flatten_append,
    flatten_entriesTokens, writeObject, List.map_map]
  rfl

end ScriptMinifier.Json
