/-
  What the labels of a program mark.

  * `DerivesProgram.split_label`: a label cuts the tokens of a program in two
    programs, as no statement holds one;
  * `DerivesProgram.label_mem_iff`: the labels among the items of a program
    are those among its tokens;
  * `Program.get?_ofItems`: of the labels with a name the last one counts, and
    marks the number of statements in front of it;
  * `labels_of_parse`: so do the labels of a text.
-/
import GotoBasic.Proofs.Parse.Blocks
import GotoBasic.Proofs.Parse.WellFormed

namespace GotoBasic

/-! ## Labels among tokens -/

section
variable {ts front back : List Token} {t : Token} {items : List Item}

/-- A token lies behind tokens in front that it is not one of. -/
theorem Token.exists_append_of_not_mem {us vs : List Token} (ht : t ∉ us)
    (heq : us ++ vs = front ++ t :: back) :
    ∃ front', front = us ++ front' ∧ vs = front' ++ t :: back := by
  rcases List.append_eq_append_iff.1 heq with h | ⟨us', rfl, hback⟩
  · exact h
  · cases us' with
    | nil => exact ⟨[], by simp, by simpa using hback.symm⟩
    | cons u us' =>
      obtain ⟨rfl, -⟩ := List.cons.inj hback
      simp at ht

theorem AllLines.not_mem {ls : List Token} (h : AllLines ls) (ht : t.kind = .label) : t ∉ ls := by
  intro hm
  simp [h t hm] at ht

/-- No statement holds a label. -/
theorem DerivesStatement.not_mem {s : Statement} (h : DerivesStatement ts s)
    (ht : t.kind = .label) : t ∉ ts := by
  intro hm
  have := h.separates_eq t hm
  rw [ht] at this
  cases this

/-- **A label cuts a program in two.** -/
theorem DerivesProgram.split_label (h : DerivesProgram ts items) (ht : t.kind = .label) :
    ∀ {front}, ts = front ++ t :: back → ∃ before after,
      items = before ++ .label t.text :: after ∧ DerivesProgram front before ∧
        DerivesProgram back after := by
  induction h with
  | lines hls =>
    intro front heq
    exact absurd (by simp [heq]) (hls.not_mem ht)
  | @label ls u us later hls hu hp ih =>
    intro front heq
    obtain ⟨front, rfl, hrest⟩ := Token.exists_append_of_not_mem (hls.not_mem ht) heq
    cases front with
    | nil =>
      obtain ⟨rfl, rfl⟩ := List.cons.inj hrest
      exact ⟨[], later, rfl, .lines (by simpa using hls), hp⟩
    | cons v front =>
      obtain ⟨rfl, hlater⟩ := List.cons.inj hrest
      obtain ⟨before, after, rfl, hfront, hback⟩ := ih hlater
      exact ⟨_, after, rfl, .label hls hu hfront, hback⟩
  | statement hls hs hp ih =>
    intro front heq
    obtain ⟨front, rfl, hrest⟩ := Token.exists_append_of_not_mem (hls.not_mem ht) heq
    obtain ⟨front, rfl, hlater⟩ := Token.exists_append_of_not_mem (hs.not_mem ht) hrest
    obtain ⟨before, after, rfl, hfront, hback⟩ := ih hlater
    exact ⟨_, after, rfl, .statement hls hs hfront, hback⟩

theorem DerivesProgram.label_mem_iff {name : String} (h : DerivesProgram ts items) :
    .label name ∈ items ↔ ∃ t ∈ ts, t.kind = .label ∧ t.text = name := by
  constructor
  · induction h with
    | lines => simp
    | @label ls u us later _ hu _ ih =>
      intro hm
      rcases List.mem_cons.1 hm with hm | hm
      · cases hm
        exact ⟨u, by simp, hu, rfl⟩
      · obtain ⟨t, ht, hk⟩ := ih hm
        exact ⟨t, by simp [ht], hk⟩
    | statement _ _ _ ih =>
      intro hm
      obtain ⟨t, ht, hk⟩ := ih (by simpa using hm)
      exact ⟨t, by simp [ht], hk⟩
  · rintro ⟨t, ht, hk, rfl⟩
    obtain ⟨front, back, rfl⟩ := List.append_of_mem ht
    obtain ⟨before, after, rfl, -⟩ := h.split_label hk rfl
    simp

end

/-! ## Labels among items -/

namespace Program

theorem mem_keys_foldl_add {name : String} {items : List Item} {p : Program} :
    name ∈ (items.foldl Program.add p).labels.keys ↔
      name ∈ p.labels.keys ∨ .label name ∈ items := by
  induction items generalizing p with
  | nil => simp
  | cons item items ih =>
    rw [List.foldl_cons, ih]
    cases item with
    | label other => simp [add, Bindings.mem_keys_put, or_assoc, or_left_comm]
    | statement s => simp [add]

/-- Later items leave a label alone that is not among them. -/
theorem get?_foldl_add {name : String} {items : List Item} {p : Program}
    (h : .label name ∉ items) :
    (items.foldl Program.add p).labels.get? name = p.labels.get? name := by
  induction items generalizing p with
  | nil => rfl
  | cons item items ih =>
    simp only [List.mem_cons, not_or] at h
    rw [List.foldl_cons, ih h.2]
    cases item with
    | label other =>
      have hne : (other == name) = false := by
        rw [beq_eq_false_iff_ne]
        rintro rfl
        exact h.1 rfl
      exact Bindings.get?_put_of_ne _ _ hne
    | statement s => rfl

/-- **The last label with a name counts**, and marks the number of statements in
    front of it. -/
theorem get?_ofItems {name : String} {before after : List Item} (h : .label name ∉ after) :
    (ofItems (before ++ .label name :: after)).labels.get? name =
      some ((before.filterMap Item.statement?).length : Int) := by
  have hsize : (ofItems before).statements.size = (before.filterMap Item.statement?).length := by
    rw [← Array.length_toList, statements_ofItems]
  rw [ofItems, List.foldl_append, List.foldl_cons, get?_foldl_add h, ← ofItems, ← hsize]
  exact Bindings.get?_put_self _ _ _

end Program

/-! ## Labels of a text -/

/-- The end of the text is the last of its tokens, and the only one. -/
theorem exists_scan_eq (source : String) :
    ∃ p, Token.scan source = upToEnd (Token.scan source) ++ [⟨.eof, "", p⟩] := by
  refine ⟨Place.start.after (closed source.toList), ?_⟩
  rw [scan_eq_read, upToEnd_append Mode.ne_eof_of_read]
  simp [upToEnd]

/-- A token of the text that is not its end lies in front of that. -/
theorem upToEnd_scan_split {source : String} {front back : List Token} {t : Token}
    (h : Token.scan source = front ++ t :: back) (ht : t.kind ≠ .eof) :
    upToEnd (Token.scan source) = front ++ t :: upToEnd back := by
  obtain ⟨p, hscan⟩ := exists_scan_eq source
  have hfront : ∀ u ∈ front, u.kind ≠ .eof := by
    intro u hu
    have hpre : front ++ [t] <+: upToEnd (Token.scan source) ++ [⟨.eof, "", p⟩] :=
      ⟨back, by rw [← hscan, h]; simp⟩
    rcases List.prefix_concat_iff.1 hpre with heq | hpre
    · obtain ⟨-, rfl⟩ := List.append_inj' heq rfl |>.imp_right List.singleton_inj.1
      exact absurd rfl ht
    · have hmem : u ∈ upToEnd (Token.scan source) := hpre.subset (by simp [hu])
      simpa using List.mem_takeWhile_imp hmem
  rw [h, upToEnd_append hfront, upToEnd_cons ht]

/-- **The labels of a text.**  They are the texts of its label tokens.  The last
    token with a label cuts the tokens in two programs, whose statements are
    those of the text, and the label marks the number of statements in front
    of it: the first statement behind it, or the end. -/
theorem labels_of_parse {source : String} {p : Program} (h : Program.parse source = .ok p) :
    p.labels.keys.Nodup ∧
    (∀ name, name ∈ p.labels.keys ↔ ∃ t ∈ Token.scan source, t.kind = .label ∧ t.text = name) ∧
    ∀ front t back, Token.scan source = front ++ t :: back → t.kind = .label →
      (∀ u ∈ back, u.kind = .label → u.text ≠ t.text) →
      ∃ before after, DerivesProgram front before ∧ DerivesProgram (upToEnd back) after ∧
        p.statements.toList =
          before.filterMap Item.statement? ++ after.filterMap Item.statement? ∧
        p.labels.get? t.text = some ((before.filterMap Item.statement?).length : Int) := by
  obtain ⟨items, hder, -, rfl⟩ := ofTokens_eq_ok_iff.1 h
  refine ⟨(wellFormed_of_parse h).distinct, fun name => ?_, fun front t back hsplit ht hlast => ?_⟩
  · have hmem : ∀ t ∈ Token.scan source, t.kind = .label → t ∈ upToEnd (Token.scan source) := by
      intro t ht hk
      obtain ⟨front, back, hsplit⟩ := List.append_of_mem ht
      simp [upToEnd_scan_split hsplit (by simp [hk])]
    rw [Program.ofItems, Program.mem_keys_foldl_add, hder.label_mem_iff]
    simp only [Program.empty, Bindings.keys_nil, List.not_mem_nil, false_or]
    constructor
    · rintro ⟨t, ht, hk⟩
      exact ⟨t, List.takeWhile_subset _ ht, hk⟩
    · rintro ⟨t, ht, hk⟩
      exact ⟨t, hmem t ht hk.1, hk⟩
  · rw [upToEnd_scan_split hsplit (by simp [ht])] at hder
    obtain ⟨before, after, rfl, hfront, hback⟩ := hder.split_label ht rfl
    have hnone : .label t.text ∉ after := by
      rw [hback.label_mem_iff]
      rintro ⟨u, hu, hk, htext⟩
      exact hlast u (List.takeWhile_subset _ hu) hk htext
    refine ⟨before, after, hfront, hback, ?_, Program.get?_ofItems hnone⟩
    rw [Program.statements_ofItems, List.filterMap_append, List.filterMap_cons_none rfl]

/-- In `:a print x :b :a goto b` the second `a` counts: one statement lies in
    front of it, and one behind. -/
theorem labels_of_parse_again :
    ∃ p, Program.parse ":a print x :b :a goto b" = .ok p ∧ p.labels.keys.Nodup ∧
      ("a" ∈ p.labels.keys ↔
        ∃ t ∈ Token.scan ":a print x :b :a goto b", t.kind = .label ∧ t.text = "a") ∧
      ∃ before after, DerivesProgram ((Token.scan ":a print x :b :a goto b").take 4) before ∧
        DerivesProgram ((Token.scan ":a print x :b :a goto b").extract 5 8) after ∧
        p.statements.toList =
          before.filterMap Item.statement? ++ after.filterMap Item.statement? ∧
        p.labels.get? "a" = some ((before.filterMap Item.statement?).length : Int) ∧
        (before.filterMap Item.statement?).length = 1 := by
  obtain ⟨p, hp, -, hlabels⟩ : ∃ p, Program.parse ":a print x :b :a goto b" = .ok p ∧
      p.statements.size = 2 ∧ p.labels = [("a", 1), ("b", 1)] :=
    exists_parse_of_summary (by decide +kernel)
  obtain ⟨hnodup, hkeys, hlast⟩ := labels_of_parse hp
  obtain ⟨before, after, hfront, hback, hstatements, hget⟩ := hlast
    ((Token.scan ":a print x :b :a goto b").take 4) ⟨.label, "a", ⟨1, 15⟩⟩
    ((Token.scan ":a print x :b :a goto b").drop 5) (by decide +kernel) rfl (by decide +kernel)
  have hup : upToEnd ((Token.scan ":a print x :b :a goto b").drop 5) =
      (Token.scan ":a print x :b :a goto b").extract 5 8 := by decide +kernel
  have hcount : ((before.filterMap Item.statement?).length : Int) = 1 := by
    have hone : p.labels.get? "a" = some 1 := by rw [hlabels]; decide
    exact Option.some.inj (hget.symm.trans hone)
  exact ⟨p, hp, hnodup, hkeys "a", before, after, hfront, hup ▸ hback, hstatements, hget,
    by omega⟩

end GotoBasic
