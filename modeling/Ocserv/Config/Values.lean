import Mathlib.Data.List.DropRight
import Ocserv.Config.Ports

/-!
# The text of an option

`sanitize_config_value` takes the white space and the quotes off both ends of a value, and
`expand_brackets_string` splits the suboptions of a method, as in
`radius[config=/etc/radiusclient.conf,groupconfig=true]`.

The first works exactly for the values of which something remains
(`sanitize_config_value_iff`); the second gives back every list of suboptions that fits, however
much white space there is between its parts (`expand_brackets_string_text`).
-/

namespace Ocserv

open List Option

/-! ## Values -/

/-- What is taken off a value: white space and quotes. -/
def trims (c : Char) : Bool := Inet.isSpace c || c = '"'

/-- The loop from the end of the value: the number of characters that are left.  When they are
all taken off, the loop goes on with the byte before the value, here `none`. -/
def trim_end (value : CStr) : Nat → Option Nat
  | 0 => none
  | len + 1 => if (value[len]?).any trims then trim_end value len else some (len + 1)

/-- The loop from the start of the value; it ends at the terminator.  A character that is passed
counts against the length. -/
def trim_start : CStr → Int → CStr × Int
  | [], len => ([], len)
  | c :: value, len => if trims c then trim_start value (len - 1) else (c :: value, len)

/-- `sanitize_config_value`.  The outer `none` is a read outside of the value, the inner one the
null pointer. -/
def sanitize_config_value (value : CStr) : Option (Option CStr) :=
  (trim_end value value.length).map fun (len : Nat) =>
    let r := trim_start value len
    if r.2 < 0 then none else some (r.1.take r.2.toNat)

/-- The value without the white space and the quotes around it. -/
def trimmed (value : CStr) : CStr := (value.rdropWhile trims).dropWhile trims

theorem trim_end_eq {value : CStr} {len : Nat} (hlen : len ≤ value.length) :
    trim_end value len =
      if (value.take len).rdropWhile trims = [] then none
      else some ((value.take len).rdropWhile trims).length := by
  induction len with
  | zero => rfl
  | succ len ih =>
    have hget : value[len]? = some value[len] := List.getElem?_eq_getElem hlen
    have htake : value.take (len + 1) = value.take len ++ [value[len]] := by
      rw [take_add_one, hget, toList_some]
    rw [trim_end, htake, rdropWhile_concat, hget, any_some]
    by_cases hc : trims value[len]
    · rw [if_pos hc, if_pos hc]
      exact ih (Nat.le_of_succ_le hlen)
    · rw [if_neg hc, if_neg hc,
        if_neg (append_ne_nil_of_right_ne_nil _ (cons_ne_nil _ _)), length_append,
        length_take_of_le (Nat.le_of_succ_le hlen), length_singleton]

theorem trim_start_eq (value : CStr) (len : Int) :
    trim_start value len = (value.dropWhile trims, len - (value.takeWhile trims).length) := by
  induction value generalizing len with
  | nil => simp [trim_start]
  | cons c value ih =>
    rw [trim_start, dropWhile_cons, takeWhile_cons]
    split_ifs with hc
    · rw [ih, length_cons]
      congr 1
      omega
    · simp

/-- The value is trimmed, and no other byte is read, exactly if there is a character in it that
stays. -/
theorem sanitize_config_value_iff (value : CStr) :
    sanitize_config_value value = some (some (trimmed value)) ↔ ∃ c ∈ value, trims c = false := by
  have hend := trim_end_eq (Nat.le_refl value.length)
  rw [take_length] at hend
  rw [sanitize_config_value, hend]
  by_cases hall : ∀ c ∈ value, trims c
  · rw [if_pos (rdropWhile_eq_nil_iff.2 hall)]
    refine iff_of_false (by simp) ?_
    rintro ⟨c, hmem, hc⟩
    simp [hall c hmem] at hc
  · refine iff_of_true ?_ (by simpa using hall)
    obtain ⟨blanks, hvalue⟩ := rdropWhile_prefix trims (l := value)
    have hne := mt rdropWhile_eq_nil_iff.1 hall
    have hlast := rdropWhile_last_not trims value hne
    rw [if_neg hne, map_some, trim_start_eq, trimmed]
    generalize value.rdropWhile trims = kept at hvalue hne hlast ⊢
    -- the last character that is kept ends the loop from the start
    have hdrop : kept.dropWhile trims ≠ [] := fun h =>
      hlast (dropWhile_eq_nil_iff.1 h _ (getLast_mem hne))
    have hlen := congrArg List.length (takeWhile_append_dropWhile (p := trims) (l := kept))
    have hpos := length_pos_iff.2 hdrop
    rw [length_append] at hlen
    have hfront : (kept ++ blanks).takeWhile trims = kept.takeWhile trims := by
      rw [takeWhile_append, if_neg (by omega)]
    have hrest : (kept ++ blanks).dropWhile trims = kept.dropWhile trims ++ blanks := by
      rw [dropWhile_append, if_neg (by simpa using hdrop)]
    have hkept : (kept.length - (kept.takeWhile trims).length : Int).toNat =
        (kept.dropWhile trims).length := by omega
    simp only [← hvalue, hfront, hrest, hkept, take_left]
    rw [if_neg (by omega)]

/-- Of a blank value the byte before it is read; nothing remains of the value. -/
theorem blank_value_read_outside :
    sanitize_config_value [] = none ∧ sanitize_config_value " ".toList = none ∧
      trimmed [] = [] ∧ trimmed " ".toList = [] := by
  decide

/-! ## Suboptions -/

def MAX_SUBOPTIONS : Nat := 5

/-- A round of `expand_brackets_string` at `p`: the name and the value, whether they are the last
ones, and what follows; `none` is a text that ends the program.  Neither the name nor the value
starts with white space, so the loops that take it off their ends stop. -/
def expand_pair (p : CStr) : Option ((CStr × CStr) × Bool × CStr) :=
  match p.dropWhile (· ≠ '=') with
  | [] => none
  | _ :: p2 =>
    let p2 := skip_spaces p2
    let stop := if ',' ∈ p2 then ',' else ']'
    if stop ∉ p2 then none
    else
      let name := (p.takeWhile (· ≠ '=')).rdropWhile Inet.isSpace
      let value := (p2.takeWhile (· ≠ stop)).rdropWhile Inet.isSpace
      some ((name, value), stop = ']',
        (p2.drop value.length).dropWhile fun c => Inet.isSpace c || c = ',')

/-- The loop; it counts the entries of `out` that are free.  The result says whether it came to
its end. -/
def expand_loop : Nat → CStr → List (CStr × CStr) → List (CStr × CStr) × Bool
  | 0, _, out => (out, true)
  | free + 1, p, out =>
    match expand_pair p with
    | none => (out, false)
    | some (pair, finish, p) =>
      if finish then (out ++ [pair], true) else expand_loop free p (out ++ [pair])

/-- `expand_brackets_string`: the entries that are written, and whether it returns. -/
def expand_brackets_string (str : CStr) : List (CStr × CStr) × Bool :=
  match str.dropWhile (· ≠ '[') with
  | [] => ([], true)
  | _ :: p => expand_loop MAX_SUBOPTIONS (skip_spaces p) []

theorem length_expand_loop (free : Nat) (p : CStr) (out : List (CStr × CStr)) :
    (expand_loop free p out).1.length ≤ out.length + free := by
  induction free generalizing p out with
  | zero => exact Nat.le_refl _
  | succ free ih =>
    rw [expand_loop]
    split
    · exact Nat.le_add_right _ _
    · next pair finish p' _ =>
      have hout : (out ++ [pair]).length = out.length + 1 := length_append
      split
      · simp only [hout]
        omega
      · have hloop := ih p' (out ++ [pair])
        omega

/-- A suboption as it is written, with the white space before and after its name and its
value. -/
structure Suboption where
  name : CStr
  value : CStr
  before_name : CStr := []
  after_name : CStr := []
  before_value : CStr := []
  after_value : CStr := []

namespace Suboption

/-- A text that neither contains a delimiter nor starts or ends with white space. -/
structure Plain (s : CStr) : Prop where
  delimiters : ∀ c ∈ s, c ≠ '=' ∧ c ≠ ',' ∧ c ≠ '[' ∧ c ≠ ']'
  head : ∀ c ∈ s.head?, Inet.isSpace c = false
  last : ∀ c ∈ s.getLast?, Inet.isSpace c = false

structure Valid (o : Suboption) : Prop where
  named : o.name ≠ []
  name : Plain o.name
  value : Plain o.value
  blank : ∀ c ∈ o.before_name ++ o.after_name ++ o.before_value ++ o.after_value, Inet.isSpace c

/-- The suboption from its name on. -/
def text (o : Suboption) : CStr :=
  o.name ++ o.after_name ++ '=' :: o.before_value ++ o.value ++ o.after_value

/-- The suboptions, separated by commas, up to the closing bracket. -/
def texts : List Suboption → CStr
  | [] => [']']
  | [o] => o.before_name ++ o.text ++ [']']
  | o :: l => o.before_name ++ o.text ++ ',' :: texts l

variable {o : Suboption} {r pad : CStr}

/-- A name or a value with white space behind it, up to a delimiter. -/
theorem Plain.up_to {s : CStr} (hs : Plain s) (hpad : ∀ c ∈ pad, Inet.isSpace c) {stop : Char}
    (hstop : stop = '=' ∨ stop = ',' ∨ stop = ']') : ∀ c ∈ s ++ pad, decide (c ≠ stop) := by
  intro c hc
  rw [decide_eq_true_eq]
  rintro rfl
  rcases mem_append.1 hc with hmem | hmem
  · obtain ⟨h₁, h₂, -, h₄⟩ := hs.delimiters c hmem
    rcases hstop with h | h | h
    · exact h₁ h
    · exact h₂ h
    · exact h₄ h
  · have hspace := hpad c hmem
    rcases hstop with rfl | rfl | rfl <;> cases hspace

theorem Plain.rdropWhile_append {s : CStr} (hs : Plain s) (hpad : ∀ c ∈ pad, Inet.isSpace c) :
    (s ++ pad).rdropWhile Inet.isSpace = s := by
  rw [List.rdropWhile, reverse_append,
    dropWhile_append_of_pos fun c hc => hpad c (mem_reverse.1 hc)]
  cases hrev : s.reverse with
  | nil => simpa using hrev
  | cons c l =>
    have hlast : c ∈ s.getLast? := by rw [← List.head?_reverse, hrev]; rfl
    rw [dropWhile_cons, hs.last c hlast, if_neg (by simp), ← hrev, reverse_reverse]

/-- What is skipped in front of a name or a value. -/
theorem Plain.dropWhile_append {s : CStr} (hs : Plain s) (hne : s ≠ []) {q : Char → Bool}
    (hq : ∀ c, Inet.isSpace c → q c) (hq' : ∀ c, q c → Inet.isSpace c ∨ c = ',')
    (hpad : ∀ c ∈ pad, Inet.isSpace c) : (pad ++ (s ++ r)).dropWhile q = s ++ r := by
  rw [dropWhile_append_of_pos fun c hc => hq c (hpad c hc)]
  obtain ⟨c, l, rfl⟩ := exists_cons_of_ne_nil hne
  have hc : ¬ q c := by
    intro h
    rcases hq' c h with hspace | rfl
    · simp [hs.head c rfl] at hspace
    · exact (hs.delimiters _ mem_cons_self).2.1 rfl
  rw [cons_append, dropWhile_cons, if_neg hc]

/-- A round reads one suboption; `stop` is the delimiter behind it. -/
theorem Valid.expand_pair (h : o.Valid) (stop : Char) (r : CStr)
    (hstop : stop = if ',' ∈ stop :: r then ',' else ']') :
    ∃ pad, (∀ c ∈ pad, Inet.isSpace c) ∧ Ocserv.expand_pair (o.text ++ stop :: r) =
      some ((o.name, o.value), decide (stop = ']'),
        (pad ++ stop :: r).dropWhile fun c => Inet.isSpace c || c = ',') := by
  have hor : stop = ',' ∨ stop = ']' := by split_ifs at hstop <;> simp [hstop]
  have hblank := h.blank
  simp only [forall_mem_append] at hblank
  obtain ⟨⟨⟨-, hafter⟩, hbefore⟩, hend⟩ := hblank
  have hname := h.name.up_to hafter (.inl rfl)
  -- the value, from its first character on
  obtain ⟨pad, hpad, hvalue⟩ : ∃ pad, (∀ c ∈ pad, Inet.isSpace c) ∧
      skip_spaces (o.before_value ++ (o.value ++ (o.after_value ++ stop :: r))) =
        o.value ++ (pad ++ stop :: r) := by
    by_cases hne : o.value = []
    · refine ⟨[], by simp, ?_⟩
      have hc : Inet.isSpace stop = false := by rcases hor with rfl | rfl <;> rfl
      rw [hne, skip_spaces, dropWhile_append_of_pos hbefore, nil_append,
        dropWhile_append_of_pos hend, dropWhile_cons, hc]
      rfl
    · exact ⟨o.after_value, hend, h.value.dropWhile_append hne (fun _ h => h) (fun _ => .inl)
        hbefore⟩
  refine ⟨pad, hpad, ?_⟩
  have hup := h.value.up_to hpad (.inr hor)
  have hcomma : ',' ∈ o.value ++ (pad ++ stop :: r) ↔ ',' ∈ stop :: r := by
    rw [← append_assoc, mem_append, or_iff_right]
    intro hmem
    simpa using h.value.up_to hpad (.inr (.inl rfl)) _ hmem
  have htext : o.text ++ stop :: r = (o.name ++ o.after_name) ++
      '=' :: (o.before_value ++ (o.value ++ (o.after_value ++ stop :: r))) := by simp [text]
  rw [htext, Ocserv.expand_pair, dropWhile_append_of_pos hname,
    takeWhile_append_of_pos hname, dropWhile_cons_of_neg (by simp),
    takeWhile_cons_of_neg (by simp), append_nil, h.name.rdropWhile_append hafter]
  simp only [hvalue, hcomma, ← hstop]
  rw [if_neg (by simp), ← append_assoc, takeWhile_append_of_pos hup,
    takeWhile_cons_of_neg (by simp), append_nil, h.value.rdropWhile_append hpad,
    append_assoc, drop_left]

/-- What is skipped in front of a suboption, at the start and behind a comma. -/
theorem Valid.dropWhile_text (h : o.Valid) {q : Char → Bool} (hq : ∀ c, Inet.isSpace c → q c)
    (hq' : ∀ c, q c → Inet.isSpace c ∨ c = ',') (r : CStr) :
    (o.before_name ++ (o.text ++ r)).dropWhile q = o.text ++ r := by
  have hblank := h.blank
  simp only [forall_mem_append] at hblank
  have htext : o.text ++ r = o.name ++
      (o.after_name ++ '=' :: (o.before_value ++ (o.value ++ (o.after_value ++ r)))) := by
    simp [text]
  rw [htext, h.name.dropWhile_append h.named hq hq' hblank.1.1.1]

theorem texts_cons (o : Suboption) (l : List Suboption) :
    ∃ r, texts (o :: l) = o.before_name ++ (o.text ++ r) := by
  cases l with
  | nil => exact ⟨[']'], append_assoc _ _ _⟩
  | cons o' l => exact ⟨',' :: texts (o' :: l), append_assoc _ _ _⟩

/-- The loop reads all suboptions, if there is room for them. -/
theorem expand_loop_texts (l : List Suboption) (ho : o.Valid) (hl : ∀ o ∈ l, o.Valid) {free : Nat}
    (hfree : l.length < free) (hr : texts (o :: l) = o.before_name ++ (o.text ++ r))
    (out : List (CStr × CStr)) :
    expand_loop free (o.text ++ r) out =
      (out ++ (o :: l).map fun o => (o.name, o.value), true) := by
  obtain ⟨free, rfl⟩ := Nat.exists_eq_add_one_of_ne_zero (Nat.ne_zero_of_lt hfree)
  rw [expand_loop]
  induction l generalizing o r free out with
  | nil =>
    obtain rfl : r = [']'] := by simpa [texts] using hr.symm
    obtain ⟨pad, -, hpair⟩ := ho.expand_pair ']' [] (by decide)
    rw [hpair]
    rfl
  | cons o' l ih =>
    obtain rfl : r = ',' :: texts (o' :: l) := by simpa [texts] using hr.symm
    obtain ⟨pad, hpad, hpair⟩ := ho.expand_pair ',' (texts (o' :: l)) (by simp)
    rw [forall_mem_cons] at hl
    obtain ⟨r, hr⟩ := texts_cons o' l
    have hskip : (pad ++ ',' :: texts (o' :: l)).dropWhile (fun c => Inet.isSpace c || c = ',') =
        o'.text ++ r := by
      rw [dropWhile_append_of_pos (by simp +contextual [hpad]), dropWhile_cons_of_pos
        (by decide), hr, hl.1.dropWhile_text (by simp +contextual) (by simp)]
    obtain ⟨free, rfl⟩ :=
      Nat.exists_eq_add_one_of_ne_zero (n := free) (by rintro rfl; simp at hfree)
    rw [hpair]
    dsimp only
    rw [if_neg (by decide), hskip, expand_loop, ih hl.1 hl.2 hr _ _ (by simpa using hfree)]
    simp

end Suboption

open Suboption in
/-- The suboptions of a method are read back, however they are set out, and no more entries are
written than there are, whatever the text is. -/
theorem expand_brackets_string_text :
    (∀ (method : CStr) (l : List Suboption), '[' ∉ method → l ≠ [] → l.length ≤ MAX_SUBOPTIONS →
      (∀ o ∈ l, o.Valid) →
      expand_brackets_string (method ++ '[' :: texts l) =
        (l.map fun o => (o.name, o.value), true)) ∧
    ∀ str, (expand_brackets_string str).1.length ≤ MAX_SUBOPTIONS := by
  refine ⟨fun method l hmethod hne hlen hl => ?_, fun str => ?_⟩
  · have hbracket : ∀ c ∈ method, decide (c ≠ '[') := by
      intro c hc
      rw [decide_eq_true_eq]
      rintro rfl
      exact hmethod hc
    obtain ⟨o, l, rfl⟩ := exists_cons_of_ne_nil hne
    rw [forall_mem_cons] at hl
    obtain ⟨r, hr⟩ := texts_cons o l
    rw [expand_brackets_string, dropWhile_append_of_pos hbracket,
      dropWhile_cons_of_neg (by simp)]
    dsimp only
    rw [hr, skip_spaces, hl.1.dropWhile_text (fun _ h => h) fun _ => .inl,
      expand_loop_texts l hl.1 hl.2 hlen hr, nil_append]
  · unfold expand_brackets_string
    split
    · exact Nat.zero_le _
    · next p _ => simpa using length_expand_loop MAX_SUBOPTIONS (skip_spaces p) []

/-- A method with two suboptions, one of them with white space around its parts. -/
theorem expand_brackets_string_plain :
    expand_brackets_string "plain[ passwd = /etc/ocpasswd ,otp=/etc/otp]".toList =
      ([("passwd".toList, "/etc/ocpasswd".toList), ("otp".toList, "/etc/otp".toList)], true) :=
  expand_brackets_string_text.1 "plain".toList
    [⟨"passwd".toList, "/etc/ocpasswd".toList, [' '], [' '], [' '], [' ']⟩,
      ⟨"otp".toList, "/etc/otp".toList, [], [], [], []⟩] (by simp) (by simp) (by decide)
    fun o ho => by
      rcases mem_pair.1 ho with rfl | rfl
      all_goals
        exact ⟨by simp, ⟨by simp, by simp [Inet.isSpace], by simp [Inet.isSpace]⟩,
          ⟨by simp, by simp [Inet.isSpace], by simp [Inet.isSpace]⟩, by simp [Inet.isSpace]⟩

end Ocserv
