import SyntaxPaint.Proofs.Json.Grammar
import SyntaxPaint.Proofs.Theme.FirstFault
/-!
# Strings of JSON

Whatever stands between quotes by the grammar is read up to the closing quote, and nothing else can
be passed over. What the string says depends on nothing behind it.
-/
namespace SyntaxPaint

/-! ## Escapes -/

theorem simpleEscape?_isSome_iff {c : Char} :
    (∃ x, simpleEscape? c = some x) ↔ c ∈ "\"\\/bfnrt".toList := by
  constructor
  · rintro ⟨x, h⟩
    rw [simpleEscape?.eq_def] at h
    split at h
    all_goals first | decide | cases h
  · intro h
    have hall : "\"\\/bfnrt".toList.all (fun c => (simpleEscape? c).isSome) = true := by decide
    exact Option.isSome_iff_exists.mp (List.all_eq_true.mp hall c h)

private theorem hexQuad?_eq_some {a b c d : Char} (h : ∀ x ∈ [a, b, c, d], x ∈ hexAlphabet) :
    ∃ n, hexQuad? a b c d = some n := by
  have hvalue {x : Char} (hx : x ∈ [a, b, c, d]) : hexValue? x = some (hexPlace x) :=
    hexValue?_eq_some_iff.mpr ⟨h x hx, rfl⟩
  rw [hexQuad?, hvalue (by simp), hvalue (by simp), hvalue (by simp), hvalue (by simp)]
  exact ⟨_, rfl⟩

private theorem mem_hexAlphabet_of_hexQuad? {a b c d : Char} {n : Nat}
    (h : hexQuad? a b c d = some n) : ∀ x ∈ [a, b, c, d], x ∈ hexAlphabet := by
  rw [hexQuad?] at h
  split at h
  · next ha hb hc hd =>
    simp only [List.mem_cons, List.not_mem_nil, or_false]
    rintro x (rfl | rfl | rfl | rfl)
    · exact (hexValue?_eq_some_iff.mp ha).1
    · exact (hexValue?_eq_some_iff.mp hb).1
    · exact (hexValue?_eq_some_iff.mp hc).1
    · exact (hexValue?_eq_some_iff.mp hd).1
  · cases h

private theorem ne_of_known {c : Char} (h : c ∈ "\"\\/bfnrt".toList) : c ≠ 'u' := by
  rintro rfl
  exact absurd h (by decide)

namespace Quoted

variable {body text rest : List Char} {c x : Char}

/-! ## Passing over -/

private theorem behind_plain (printable : 0x20 ≤ c.toNat) (quote : c ≠ '"')
    (backslash : c ≠ '\\') : behind (c :: rest) = behind rest := by
  rw [behind.eq_7 c rest quote (by simp [backslash]) (by simp [backslash]) (by simp [backslash])
    (by simp [backslash]), if_neg (Nat.not_lt.mpr printable)]

private theorem behind_letter (known : c ∈ "\"\\/bfnrt".toList) :
    behind ('\\' :: c :: rest) = behind rest := by
  obtain ⟨x, hx⟩ := simpleEscape?_isSome_iff.mpr known
  rw [behind.eq_5 c rest (by simp [ne_of_known known]) (ne_of_known known), hx]

theorem behind_body (h : JsonBody body) (rest : List Char) :
    behind (body ++ '"' :: rest) = .ok rest := by
  induction h with
  | nil => rfl
  | plain printable quote backslash tail ih =>
    rw [List.cons_append, behind_plain printable quote backslash, ih]
  | letter known tail ih =>
    rw [List.cons_append, List.cons_append, behind_letter known, ih]
  | code digits tail ih =>
    obtain ⟨n, hn⟩ := hexQuad?_eq_some digits
    simp only [List.cons_append, behind, hn, ih]

theorem exists_body_of_behind (h : behind text = .ok rest) :
    ∃ body, JsonBody body ∧ text = body ++ '"' :: rest := by
  fun_induction behind text with
  | case2 tail =>
    obtain rfl := Except.ok.inj h
    exact ⟨[], .nil, rfl⟩
  | case4 a b c d tail n hn ih =>
    obtain ⟨body, hbody, rfl⟩ := ih h
    exact ⟨_, .code (mem_hexAlphabet_of_hexQuad? hn) hbody, rfl⟩
  | case6 c tail _ hc x hx ih =>
    obtain ⟨body, hbody, rfl⟩ := ih h
    exact ⟨_, .letter (simpleEscape?_isSome_iff.mp ⟨x, hx⟩) hbody, rfl⟩
  | case10 c tail hquote _ _ hescape hlone hc ih =>
    obtain ⟨body, hbody, rfl⟩ := ih h
    have hbackslash : c ≠ '\\' := by
      intro hc
      rcases htail : body ++ '"' :: rest with _ | ⟨d, ds⟩
      · exact hlone hc htail
      · exact hescape d ds hc htail
    exact ⟨_, .plain (Nat.not_lt.mp hc) hquote hbackslash hbody, rfl⟩
  | _ => cases h

/-! ## Reading -/

theorem contents_plain (printable : 0x20 ≤ c.toNat) (quote : c ≠ '"')
    (backslash : c ≠ '\\') : contents (c :: rest) = (contents rest).map (c :: ·) := by
  rw [contents.eq_7 c rest quote (by simp [backslash]) (by simp [backslash]) (by simp [backslash])
    (by simp [backslash]), if_neg (Nat.not_lt.mpr printable)]

theorem contents_letter (h : simpleEscape? c = some x) :
    contents ('\\' :: c :: rest) = (contents rest).map (x :: ·) := by
  have hu : c ≠ 'u' := ne_of_known (simpleEscape?_isSome_iff.mp ⟨x, h⟩)
  rw [contents.eq_5 c rest (by simp [hu]) hu, h]

/-- What a string says does not depend on the text behind it. -/
theorem contents_body (h : JsonBody body) (rest rest' : List Char) :
    contents (body ++ '"' :: rest) = contents (body ++ '"' :: rest') := by
  induction hn : body.length using Nat.strong_induction_on generalizing body with
  | _ n ih =>
    cases h with
    | nil => rfl
    | plain printable quote backslash tail =>
      rw [List.cons_append, List.cons_append, contents_plain printable quote backslash,
        contents_plain printable quote backslash, ih _ (hn ▸ Nat.lt_succ_self _) tail rfl]
    | letter known tail =>
      obtain ⟨x, hx⟩ := simpleEscape?_isSome_iff.mpr known
      simp only [List.cons_append, contents_letter hx]
      rw [ih _ (by simp only [← hn, List.length_cons]; omega) tail rfl]
    | @code a b c d inner digits tail =>
      obtain ⟨m, hm⟩ := hexQuad?_eq_some digits
      simp only [List.cons_append, contents, hm]
      split_ifs
      · rw [ih _ (by simp only [← hn, List.length_cons]; omega) tail rfl]
      · rfl
      · -- The first half of a character is followed by its other half, or the string says nothing.
        cases tail with
        | nil => rfl
        | plain printable quote backslash tail => simp [backslash, faultAt]
        | letter known tail => simp [ne_of_known known, faultAt]
        | @code a' b' c' d' inner' digits' tail' =>
          obtain ⟨m', hm'⟩ := hexQuad?_eq_some digits'
          simp only [List.cons_append, hm']
          split_ifs
          · rw [ih _ (by simp only [← hn, List.length_cons]; omega) tail' rfl]
          · rfl

theorem exists_behind_of_contents {said : List Char} (h : contents text = .ok said) :
    ∃ rest, behind text = .ok rest := by
  fun_induction contents text generalizing said with
  | case2 => exact ⟨_, rfl⟩
  | case4 a b c d tail n hn _ ih =>
    obtain ⟨more, hmore, -⟩ := map_eq_ok_iff.mp h
    obtain ⟨rest, hrest⟩ := ih hmore
    exact ⟨rest, by simp only [behind, hn, hrest]⟩
  | case7 a b c d n hn _ _ a' b' c' d' tail m hm _ ih =>
    obtain ⟨more, hmore, -⟩ := map_eq_ok_iff.mp h
    obtain ⟨rest, hrest⟩ := ih hmore
    exact ⟨rest, by simp only [behind, hn, hm, hrest]⟩
  | case13 c tail _ hc x hx ih =>
    obtain ⟨more, hmore, -⟩ := map_eq_ok_iff.mp h
    obtain ⟨rest, hrest⟩ := ih hmore
    exact ⟨rest, by rw [behind_letter (simpleEscape?_isSome_iff.mp ⟨x, hx⟩), hrest]⟩
  | case17 c tail hquote _ _ hescape hlone hc ih =>
    obtain ⟨more, hmore, -⟩ := map_eq_ok_iff.mp h
    obtain ⟨rest, hrest⟩ := ih hmore
    refine ⟨rest, ?_⟩
    rw [behind.eq_7 c tail hquote ‹_› ‹_› hescape hlone, if_neg hc, hrest]
  | _ => cases h

/-- A string of the grammar is read whole. -/
theorem read_body (h : JsonBody body) (rest : List Char) :
    read (body ++ '"' :: rest) = (.ofBody body, rest) := by
  simp only [read, behind_body h, contents_body h rest [], ofBody]

theorem exists_body_of_read {q : Quoted} (h : read text = (q, rest))
    (sound : (∃ s, q.value = .ok s) ∨ q.skipped = none) :
    ∃ body, JsonBody body ∧ q = .ofBody body ∧ text = body ++ '"' :: rest := by
  have hbehind : ∃ rest', behind text = .ok rest' := by
    rw [read] at h
    cases hpass : behind text with
    | ok rest' => exact ⟨rest', rfl⟩
    | error fault =>
      simp only [hpass, Prod.mk.injEq] at h
      obtain ⟨rfl, -⟩ := h
      obtain ⟨s, hs⟩ | hskipped := sound
      · obtain ⟨said, hsaid, -⟩ := map_eq_ok_iff.mp hs
        obtain ⟨rest', hrest'⟩ := exists_behind_of_contents hsaid
        simp [hrest'] at hpass
      · simp at hskipped
  obtain ⟨rest', hrest'⟩ := hbehind
  obtain ⟨body, hbody, rfl⟩ := exists_body_of_behind hrest'
  rw [read_body hbody, Prod.mk.injEq] at h
  obtain ⟨rfl, rfl⟩ := h
  exact ⟨body, hbody, rfl, rfl⟩

end Quoted
end SyntaxPaint
