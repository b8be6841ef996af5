import Worksheet.Proofs.JsonFaults

/-!
# JSON text that goes on after a break

A text that is cut off is followed by an object.  No token reaches across the brace at which the
object starts, except for a string that is still open: it takes the brace and ends at the first quote
of the object, so that a key stands outside quotes.  Nothing that is open at the break is closed by
the object, since its brackets match.  So the two texts together are no JSON, unless the first one has
no token at all.
-/

namespace Worksheet.Json

/-! ## Tokens before a break -/

/-- A text at which an object with an entry starts, the key of which starts with a character. -/
def objectText (k : Char) (cs : List Char) : List Char :=
  '\x7b' :: '"' :: k :: cs

theorem endsNumber_objectText (k : Char) (cs : List Char) : EndsNumber (objectText k cs) := by
  intro c hc
  obtain rfl := Option.some.inj hc
  decide

/-- A name does not reach across a character that it has not got. -/
theorem isPrefixOf_append {name : List Char} {x : Char} (hx : x ∉ name) (cs rest : List Char) :
    name.isPrefixOf (cs ++ x :: rest) = name.isPrefixOf cs := by
  induction name generalizing cs with
  | nil => rfl
  | cons a name ih =>
      rw [List.mem_cons, not_or] at hx
      cases cs with
      | nil =>
          have hne : (a == x) = false := beq_eq_false_iff_ne.mpr (Ne.symm hx.1)
          rw [List.nil_append, List.isPrefixOf_cons_cons, hne]
          rfl
      | cons c cs =>
          rw [List.cons_append, List.isPrefixOf_cons_cons, List.isPrefixOf_cons_cons, ih hx.2]

theorem find?_names_append (cs rest : List Char) :
    (Token.names.find? fun (name, _) => name.toList.isPrefixOf (cs ++ '\x7b' :: rest)) =
      Token.names.find? fun (name, _) => name.toList.isPrefixOf cs := by
  have hnames : ∀ e ∈ Token.names, '\x7b' ∉ e.1.toList := by decide
  exact List.find?_congr fun e he => isPrefixOf_append (hnames e he) cs rest

/-! ### Strings -/

theorem stringBody?_plain {c : Char} (hquote : c ≠ '"') (hback : c ≠ '\\') (cs : List Char) :
    Token.stringBody? (c :: cs) = (Token.stringBody? cs).map (c :: ·) := by
  rw [Token.stringBody?]
  · exact hquote
  · exact fun _ _ h _ => hback h

/-- A string that has ended does not go on. -/
theorem stringBody?_append_of_some {cs body : List Char} (h : Token.stringBody? cs = some body) :
    body.length < cs.length ∧ ∀ rest, Token.stringBody? (cs ++ rest) = some body := by
  fun_induction Token.stringBody? cs generalizing body with
  | case1 => cases h
  | case2 cs =>
      obtain rfl := Option.some.inj h
      exact ⟨Nat.succ_pos _, fun _ => rfl⟩
  | case3 e cs ih =>
      obtain ⟨body, hbody, rfl⟩ := Option.map_eq_some_iff.mp h
      obtain ⟨hlength, happend⟩ := ih hbody
      refine ⟨Nat.add_lt_add_right hlength 2, fun rest => ?_⟩
      rw [List.cons_append, List.cons_append, stringBody?_escape, happend, Option.map_some]
  | case4 c cs hquote hback ih =>
      obtain ⟨body, hbody, rfl⟩ := Option.map_eq_some_iff.mp h
      obtain ⟨hlength, happend⟩ := ih hbody
      have hplain : c ≠ '\\' := by
        rintro rfl
        cases cs with
        | nil => cases hbody
        | cons e cs => exact hback e cs rfl rfl
      refine ⟨Nat.succ_lt_succ hlength, fun rest => ?_⟩
      rw [List.cons_append, stringBody?_plain hquote hplain, happend, Option.map_some]

/-- A string that is still open ends at the next quote. -/
theorem stringBody?_append_of_none {cs : List Char} (h : Token.stringBody? cs = none) (k : Char)
    (rest : List Char) :
    Token.stringBody? (cs ++ objectText k rest) = some (cs ++ ['\x7b']) := by
  fun_induction Token.stringBody? cs with
  | case1 => rfl
  | case2 => cases h
  | case3 e cs ih =>
      rw [List.cons_append, List.cons_append, stringBody?_escape, ih (Option.map_eq_none_iff.mp h),
        Option.map_some, List.cons_append, List.cons_append]
  | case4 c cs hquote hback ih =>
      by_cases hplain : c = '\\'
      · subst hplain
        cases cs with
        | nil => rfl
        | cons e cs => exact absurd rfl (hback e cs rfl)
      · rw [List.cons_append, stringBody?_plain hquote hplain, ih (Option.map_eq_none_iff.mp h),
          Option.map_some, List.cons_append]

/-! ### Lengths -/

theorem append_isPrefix {front back cs : List Char} (hfront : front <+: cs)
    (hback : back <+: cs.drop front.length) : front ++ back <+: cs := by
  obtain ⟨rest, rfl⟩ := hfront
  rw [List.drop_left] at hback
  exact (List.prefix_append_right_inj front).mpr hback

theorem exponentLexeme_isPrefix (cs : List Char) : Decimal.exponentLexeme cs <+: cs := by
  cases cs with
  | nil => exact List.nil_prefix
  | cons e cs =>
      rw [exponentLexeme_cons]
      dsimp only
      split
      · split
        · exact List.nil_prefix
        · exact (List.prefix_cons_inj e).mpr
            (append_isPrefix (signLexeme_isPrefix cs) (List.takeWhile_prefix _))
      · exact List.nil_prefix

theorem magnitudeLexeme?_isPrefix {cs lexeme : List Char}
    (h : Token.magnitudeLexeme? cs = some lexeme) : lexeme <+: cs := by
  rw [magnitudeLexeme?_eq] at h
  dsimp only at h
  split at h
  · cases h
  · obtain rfl := Option.some.inj h
    refine append_isPrefix (append_isPrefix (wholeLexeme_isPrefix cs)
      (fractionLexeme_isPrefix _)) ?_
    rw [List.length_append, ← List.drop_drop]
    exact exponentLexeme_isPrefix _

theorem numberLexeme?_isPrefix {cs lexeme : List Char} (h : Token.numberLexeme? cs = some lexeme) :
    lexeme <+: cs := by
  unfold Token.numberLexeme? at h
  split at h
  · obtain ⟨magnitude, hmagnitude, rfl⟩ := Option.map_eq_some_iff.mp h
    exact (List.prefix_cons_inj '-').mpr (magnitudeLexeme?_isPrefix hmagnitude)
  · exact magnitudeLexeme?_isPrefix h

/-- A token takes no more characters than there are. -/
theorem first_le_length (c : Char) (cs : List Char) : (Token.first c cs).2 ≤ cs.length := by
  unfold Token.first
  split
  case h_7 =>
    split
    · next hbody => exact (stringBody?_append_of_some hbody).1
    · exact Nat.zero_le _
  case h_8 =>
    split
    · next name v hname =>
      have hfront : name.toList.isPrefixOf (c :: cs) :=
        List.find?_some (p := fun e : String × Json => e.1.toList.isPrefixOf (c :: cs)) hname
      have hlength := (List.isPrefixOf_iff_prefix.mp hfront).length_le
      rw [String.length_toList, List.length_cons] at hlength
      dsimp only
      omega
    · split
      · next hlexeme =>
        have hlength := (numberLexeme?_isPrefix hlexeme).length_le
        rw [List.length_cons] at hlength
        dsimp only
        omega
      · exact Nat.zero_le _
  all_goals exact Nat.zero_le _

/-! ### From token to token -/

/-- A token does not reach across a brace, unless it is a string that is still open. -/
theorem first_append {c : Char} {cs : List Char}
    (h : c = '"' → Token.stringBody? cs ≠ none) (k : Char) (rest : List Char) :
    Token.first c (cs ++ objectText k rest) = Token.first c cs := by
  unfold Token.first
  split
  case h_7 =>
    obtain ⟨body, hbody⟩ := Option.ne_none_iff_exists'.mp (h rfl)
    rw [(stringBody?_append_of_some hbody).2, hbody]
  case h_8 =>
    have hnames := find?_names_append (c :: cs) ('"' :: k :: rest)
    rw [List.cons_append] at hnames
    rw [objectText, hnames, ← objectText, numberLexeme?_append (endsNumber_objectText k rest)]
  all_goals rfl

theorem first_quote (cs : List Char) : Token.first '"' cs =
    match Token.stringBody? cs with
    | some body => (((Token.unescape? body).map Token.text).getD .malformed, body.length + 1)
    | none => (.malformed, 0) :=
  rfl

theorem first_of_open {cs : List Char} (h : Token.stringBody? cs = none) :
    Token.first '"' cs = (.malformed, 0) := by
  rw [first_quote, h]

/-- What a string that is still open becomes: it ends at the first quote of the object. -/
theorem first_append_of_open {cs : List Char} (h : Token.stringBody? cs = none) (k : Char)
    (rest : List Char) : ∃ t, Token.first '"' (cs ++ objectText k rest) = (t, cs.length + 2) ∧
      (t = .malformed ∨ ∃ s, t = .text s) := by
  have hbody := stringBody?_append_of_none h k rest
  refine ⟨((Token.unescape? (cs ++ ['\x7b'])).map Token.text).getD .malformed, ?_, ?_⟩
  · rw [first_quote, hbody]
    dsimp only
    rw [List.length_append]
    rfl
  · cases Token.unescape? (cs ++ ['\x7b']) with
    | none => exact .inl rfl
    | some s => exact .inr ⟨s, rfl⟩

theorem drop_objectText (cs : List Char) (k : Char) (rest : List Char) :
    (cs ++ objectText k rest).drop (cs.length + 2) = k :: rest := by
  rw [List.drop_append, List.drop_eq_nil_of_le (Nat.le_add_right _ 2), Nat.add_sub_cancel_left]
  rfl

/-- **An object behind a break has its own tokens, unless a token is not well-formed at the break.**
Then that one is still not well-formed, or it is a string and the one after it is not. -/
theorem Cuts.tokens_append {cs : List Char} {ts : List Token} (h : Cuts cs ts) {k : Char}
    {rest : List Char} (hk : tokens (k :: rest) = [.malformed]) :
    tokens (cs ++ objectText k rest) = ts ++ tokens (objectText k rest) ∨
      ∃ front, ts = front ++ [.malformed] ∧
        (tokens (cs ++ objectText k rest) = front ++ [.malformed] ∨
          ∃ s, tokens (cs ++ objectText k rest) = front ++ [.text s, .malformed]) := by
  induction h with
  | done hgap => exact .inl (tokens_gaps hgap _)
  | @malformed gap c cs more hgap hc hfirst =>
      refine .inr ⟨[], rfl, ?_⟩
      rw [List.append_assoc, tokens_gaps hgap, List.cons_append]
      by_cases hopen : c = '"' ∧ Token.stringBody? cs = none
      · obtain ⟨rfl, hbody⟩ := hopen
        obtain ⟨t, ht, rfl | ⟨s, rfl⟩⟩ := first_append_of_open hbody k rest
        · exact .inl (tokens_malformed hc ht)
        · refine .inr ⟨s, ?_⟩
          rw [tokens_cons hc ht nofun, drop_objectText, hk, List.nil_append]
      · have happend := first_append (fun hquote hbody => hopen ⟨hquote, hbody⟩) k rest
        exact .inl (tokens_malformed hc (happend.trans hfirst))
  | @token gap c cs t more ts hgap hc hfirst ht _ ih =>
      have hclosed : c = '"' → Token.stringBody? cs ≠ none := by
        rintro rfl hbody
        exact ht (congrArg Prod.fst (hfirst.symm.trans (first_of_open hbody)))
      have happend := (first_append hclosed k rest).trans hfirst
      have hlength : more ≤ cs.length := by
        have := first_le_length c cs
        rwa [hfirst] at this
      rw [List.append_assoc, tokens_gaps hgap, List.cons_append, tokens_cons hc happend ht,
        List.drop_append_of_le_length hlength]
      rcases ih with heq | ⟨front, rfl, heq | ⟨s, heq⟩⟩
      · exact .inl (by rw [heq, List.cons_append])
      · exact .inr ⟨t :: front, rfl, .inl (by rw [heq, List.cons_append])⟩
      · exact .inr ⟨t :: front, rfl, .inr ⟨s, by rw [heq, List.cons_append]⟩⟩

/-! ## Reading on behind a break -/

theorem step_of_opens {focus : Focus} (hfocus : StartsValue focus) {t : Token} (ht : t.opens)
    (frames : List Frame) : step ⟨frames, focus⟩ t = startValue frames t := by
  rcases hfocus with rfl | rfl
  · rfl
  · cases t with
    | beginArray | beginObject => rcases frames with _ | ⟨_ | _, _⟩ <;> rfl
    | _ => cases ht

/-- Frames further out do not matter for a step, but for how many there are. -/
theorem Steps.within {r r' : Reading} {t : Token} (h : Steps r t r') (outer : List Frame) :
    step ⟨r.frames ++ outer, r.focus⟩ t = .ok ⟨r'.frames ++ outer, r'.focus⟩ ∨
      step ⟨r.frames ++ outer, r.focus⟩ t = .error .tooDeep := by
  cases h with
  | leaf hfocus h => exact .inl (step_of_startsValue hfocus (h _))
  | @beginArray frames focus hfocus _ =>
      rw [step_of_opens hfocus rfl]
      by_cases hroom : maxDepth ≤ (frames ++ outer).length
      · exact .inr (if_pos hroom)
      · exact .inl (if_neg hroom)
  | @beginObject frames focus hfocus _ =>
      rw [step_of_opens hfocus rfl]
      by_cases hroom : maxDepth ≤ (frames ++ outer).length
      · exact .inr (if_pos hroom)
      · exact .inl (if_neg hroom)
  | emptyArray | emptyObject | firstKey | key | colon | nextItem | endArray | nextKey | endObject =>
      exact .inl rfl

theorem run_within {r r' : Reading} {ts : List Token} (h : ts.foldlM step r = .ok r')
    (outer : List Frame) :
    ts.foldlM step ⟨r.frames ++ outer, r.focus⟩ = .ok ⟨r'.frames ++ outer, r'.focus⟩ ∨
      ts.foldlM step ⟨r.frames ++ outer, r.focus⟩ = .error .tooDeep := by
  induction ts generalizing r with
  | nil =>
      obtain rfl := Except.ok.inj h
      exact .inl rfl
  | cons t ts ih =>
      rw [List.foldlM_cons] at h
      obtain ⟨r'', hstep, hrest⟩ := exists_of_bind h
      rw [List.foldlM_cons]
      rcases (steps_of_step hstep).within outer with hwithin | hdeep
      · rw [hwithin]
        exact ih hrest
      · rw [hdeep]
        exact .inr rfl

/-- Once a token has been read, a value can only start within a frame. -/
theorem Steps.frames_ne_nil {r r' : Reading} {t : Token} (h : Steps r t r')
    (hfocus : StartsValue r'.focus) : r'.frames ≠ [] := by
  cases h with
  | beginArray | colon | nextItem => exact List.cons_ne_nil _ _
  | leaf | beginObject | emptyArray | emptyObject | firstKey | key | endArray | nextKey | endObject =>
      rcases hfocus with h | h <;> cases h

theorem frames_ne_nil_of_run {r r' : Reading} {ts : List Token} (hne : ts ≠ [])
    (h : ts.foldlM step r = .ok r') (hfocus : StartsValue r'.focus) : r'.frames ≠ [] := by
  induction ts generalizing r with
  | nil => exact absurd rfl hne
  | cons t ts ih =>
      rw [List.foldlM_cons] at h
      obtain ⟨r'', hstep, hrest⟩ := exists_of_bind h
      rcases ts with _ | ⟨t', ts⟩
      · obtain rfl := Except.ok.inj hrest
        exact (steps_of_step hstep).frames_ne_nil hfocus
      · exact ih (List.cons_ne_nil t' ts) hrest

/-! ### Whole texts -/

section

variable {cs : List Char}

theorem read_of_run_error {fault : Fault}
    (h : (tokens cs).foldlM step ⟨[], .value⟩ = .error fault) : read cs = .error fault := by
  rw [read, h]
  rfl

theorem read_of_frames {r : Reading} (h : (tokens cs).foldlM step ⟨[], .value⟩ = .ok r)
    (hne : r.frames ≠ []) : read cs = .error .malformed := by
  obtain ⟨frames, focus⟩ := r
  obtain ⟨frame, frames, rfl⟩ := List.exists_cons_of_ne_nil hne
  rw [read, h]
  rfl

theorem run_of_read {v : Json} (h : read cs = .ok v) :
    (tokens cs).foldlM step ⟨[], .value⟩ = .ok ⟨[], .complete v⟩ := by
  unfold read at h
  obtain ⟨r, hrun, hend⟩ := exists_of_bind h
  split at hend
  · obtain rfl := Except.ok.inj hend
    exact hrun
  · cases hend

theorem Cuts.isGap_of_nil (h : Cuts cs []) : ∀ c ∈ cs, Token.isGap c := by
  cases h with
  | done hgap => exact hgap

end

theorem tokens_objectText (k : Char) (rest : List Char) :
    tokens (objectText k rest) = .beginObject :: tokens ('"' :: k :: rest) := by
  have hfirst : Token.first '\x7b' ('"' :: k :: rest) = (.beginObject, 0) := rfl
  exact tokens_cons (by decide) hfirst nofun

/-- Where no value can start, none is started. -/
theorem step_beginObject_of_not_startsValue {r : Reading} (h : ¬ StartsValue r.focus) :
    step r .beginObject = .error .malformed := by
  obtain ⟨frames, focus⟩ := r
  cases focus with
  | value => exact absurd (.inl rfl) h
  | firstItem => exact absurd (.inr rfl) h
  | firstKey | key | colon | complete => rcases frames with _ | ⟨_ | _, _⟩ <;> rfl

theorem step_text_error {r : Reading} {s : List CodePoint} {fault : Fault}
    (h : step r (.text s) = .error fault) : fault = .malformed := by
  rcases step_error h with rfl | ⟨_, hnumber, _⟩ | ⟨hopens, _⟩
  · rfl
  · cases hnumber
  · cases hopens

/-- An object that can be read on its own does not close anything in front of it. -/
theorem run_objectText {k : Char} {rest : List Char} {v : Json}
    (hread : read (objectText k rest) = .ok v) (r : Reading) :
    (tokens (objectText k rest)).foldlM step r = .ok ⟨r.frames, .complete v⟩ ∧
        StartsValue r.focus ∨
      (tokens (objectText k rest)).foldlM step r = .error .malformed ∨
      (tokens (objectText k rest)).foldlM step r = .error .tooDeep := by
  by_cases hfocus : StartsValue r.focus
  · have hwithin := run_within (run_of_read hread) r.frames
    have hsame : (tokens (objectText k rest)).foldlM step r =
        (tokens (objectText k rest)).foldlM step ⟨[] ++ r.frames, .value⟩ := by
      rw [tokens_objectText, List.foldlM_cons, List.foldlM_cons, step_of_opens hfocus rfl,
        step_of_opens (.inl rfl) rfl, List.nil_append]
    rw [← hsame] at hwithin
    exact hwithin.imp (fun h => ⟨h, hfocus⟩) .inr
  · refine .inr (.inl ?_)
    rw [tokens_objectText, List.foldlM_cons, step_beginObject_of_not_startsValue hfocus]
    rfl

theorem run_append_error {front back : List Token} {r : Reading} {fault : Fault}
    (h : (front ++ back).foldlM step r = .error fault) :
    front.foldlM step r = .error fault ∨ ∃ r', back.foldlM step r' = .error fault := by
  rw [List.foldlM_append] at h
  cases hfront : front.foldlM step r with
  | error cause =>
      rw [hfront] at h
      exact .inl h
  | ok r' =>
      rw [hfront] at h
      exact .inr ⟨r', h⟩

/-- Reading does not get past a token that is not well-formed. -/
theorem run_malformed {front : List Token} {r : Reading}
    (h : ∀ fault, front.foldlM step r = .error fault → fault = .malformed) :
    (front ++ [Token.malformed]).foldlM step r = .error .malformed := by
  rw [List.foldlM_append]
  cases hfront : front.foldlM step r with
  | error fault =>
      obtain rfl := h fault hfront
      rfl
  | ok r' =>
      show [Token.malformed].foldlM step r' = _
      rw [List.foldlM_cons, Reading.step_malformed]
      rfl

/-- What ends in a malformed token is no JSON, also if a string is cut off in front of it. -/
theorem run_cutOff {front ts : List Token} {r : Reading}
    (hfront : ∀ fault, front.foldlM step r = .error fault → fault = .malformed)
    (hts : ts = front ++ [.malformed] ∨ ∃ s, ts = front ++ [.text s, .malformed]) :
    ts.foldlM step r = .error .malformed := by
  rcases hts with rfl | ⟨s, rfl⟩
  · exact run_malformed hfront
  · rw [List.append_cons]
    refine run_malformed fun fault h => ?_
    rcases run_append_error h with h | ⟨r', h⟩
    · exact hfront fault h
    · simp only [List.foldlM_cons, List.foldlM_nil, bind_pure] at h
      exact step_text_error h

/-- **An object behind a break is not read**, if there is a token in front of it.  The text in front
of it can be read, or is no JSON. -/
theorem read_append_object {cs : List Char} {k : Char} {rest : List Char} {v : Json}
    (hcs : ∀ fault, read cs = .error fault → fault = .malformed)
    (htoken : ∃ c ∈ cs, ¬ Token.isGap c) (hk : tokens (k :: rest) = [.malformed])
    (hread : read (objectText k rest) = .ok v) :
    read (cs ++ objectText k rest) = .error .malformed ∨
      read (cs ++ objectText k rest) = .error .tooDeep := by
  have hfault : ∀ fault, (tokens cs).foldlM step ⟨[], .value⟩ = .error fault →
      fault = .malformed := fun fault h => hcs fault (read_of_run_error h)
  rcases (cuts_tokens cs).tokens_append hk with happend | ⟨front, hfront, happend⟩
  · cases hrun : (tokens cs).foldlM step ⟨[], .value⟩ with
    | error fault =>
        obtain rfl := hfault fault hrun
        refine .inl (read_of_run_error ?_)
        rw [happend, List.foldlM_append, hrun]
        rfl
    | ok r =>
        have hnext : (tokens (cs ++ objectText k rest)).foldlM step ⟨[], .value⟩ =
            (tokens (objectText k rest)).foldlM step r := by
          rw [happend, List.foldlM_append, hrun]
          rfl
        have hne : tokens cs ≠ [] := fun hnil => by
          obtain ⟨c, hc, hgap⟩ := htoken
          exact hgap ((hnil ▸ cuts_tokens cs).isGap_of_nil c hc)
        rcases run_objectText hread r with ⟨hobject, hfocus⟩ | hobject | hobject
        · have hopen := frames_ne_nil_of_run hne hrun hfocus
          exact .inl (read_of_frames (hnext.trans hobject) hopen)
        · exact .inl (read_of_run_error (hnext.trans hobject))
        · exact .inr (read_of_run_error (hnext.trans hobject))
  · have hfaultFront : ∀ fault, front.foldlM step ⟨[], .value⟩ = .error fault →
        fault = .malformed := fun fault h => hfault fault (by
      rw [hfront, List.foldlM_append, h]
      rfl)
    exact .inl (read_of_run_error (run_cutOff hfaultFront happend))

end Worksheet.Json
