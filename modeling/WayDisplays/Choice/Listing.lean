/- The printed modes of a head, and the modes that the numbers of a line choose. -/

import Mathlib.Data.Prod.Lex
import WayDisplays.Choice.FindMode
import WayDisplays.Commands.Arguments
import WayDisplays.Lib.Clusters
import WayDisplays.Model.Info

set_option autoImplicit false
set_option relaxedAutoImplicit false

namespace WayDisplays.Choice.Listing

open Commands.Arguments
open FindMode (cfgMode displayWith fullHd headFindMode_eq headUserMode_of_best)
open Lib (OrderedMap)
open Lib.Clusters (Cluster clusters)
open Lib.Rounding (significant_of_near)
open Model
open Search
open Yaml.Scalars

/-! ### Lines -/

/-- What a line starts with: the size and the Hz of its modes. -/
def lineKey (e : ModeEntry) : ℤ ×ₗ ℤ ×ₗ ℤ :=
  toLex (e.2.width, toLex (e.2.height, modeHzRounded e.2))

theorem lineKey_eq_iff {a b : ModeEntry} :
    lineKey a = lineKey b ↔ SameSize a.2 b.2 ∧ modeHzRounded a.2 = modeHzRounded b.2 := by
  simp [lineKey, SameSize, and_assoc]

theorem modeEqualResHz_iff (a b : ModeEntry) :
    modeEqualResHz a.2 b.2 = true ↔ lineKey a = lineKey b := by
  simp [modeEqualResHz, lineKey_eq_iff]

theorem modeHzRounded_mono {a b : Mode} (h : a.refreshMhz ≤ b.refreshMhz) :
    modeHzRounded a ≤ modeHzRounded b := by
  unfold modeHzRounded
  exact Int.tdiv_le_tdiv (by omega) (by omega)

theorem lineKey_le {a b : ModeEntry} (h : AtMost a.2 b.2) : lineKey a ≤ lineKey b := by
  simp only [lineKey, Prod.Lex.toLex_le_toLex]
  rcases h with hwidth | ⟨hwidth, hheight | ⟨hheight, hrefresh⟩⟩
  · exact Or.inl hwidth
  · exact Or.inr ⟨hwidth, Or.inl hheight⟩
  · exact Or.inr ⟨hwidth, Or.inr ⟨hheight, modeHzRounded_mono hrefresh⟩⟩

theorem descending_modeCandidates (modes : Modes) :
    (modeCandidates modes).Pairwise (fun a b => lineKey b ≤ lineKey a) := by
  apply (sorted_modeCandidates modes).imp
  intro a b h
  exact lineKey_le (modeGreaterThanResRefresh_eq_false.mp h)

theorem mem_line_iff {modes : Modes} {line : Cluster ModeEntry} (hline : line ∈ modeLines modes)
    {e : ModeEntry} : e ∈ line.members ↔ e ∈ modes.entries ∧ SameSize e.2 line.first.2 ∧
      modeHzRounded e.2 = modeHzRounded line.first.2 := by
  rw [← lineKey_eq_iff, ← mem_modeCandidates]
  exact Lib.Clusters.mem_members_iff modeEqualResHz_iff (descending_modeCandidates modes) hline

/-- Each mode is on one printed line, once; a line has all the modes of a size and Hz, the fastest
first, and the lines go down from the widest, the tallest and the fastest. -/
theorem modes_listed (head : Head) :
    ∃ lines : List (Cluster ModeEntry),
      printModesResRefresh head = lines.map (modeLineMsg (headModePref head)) ∧
      (lines.flatMap Cluster.members).Perm head.modes.entries ∧
      lines.Pairwise (fun above below => lineKey below.first < lineKey above.first) ∧
      ∀ line ∈ lines,
        (∀ e, e ∈ line.members ↔ e ∈ head.modes.entries ∧ SameSize e.2 line.first.2 ∧
          modeHzRounded e.2 = modeHzRounded line.first.2) ∧
        line.members.Pairwise (fun a b => b.2.refreshMhz ≤ a.2.refreshMhz) := by
  have hmembers : (modeLines head.modes).flatMap Cluster.members = modeCandidates head.modes :=
    Lib.Clusters.members_clusters _ _
  refine ⟨modeLines head.modes, rfl, ?_, ?_, ?_⟩
  · rw [hmembers]
    exact plistSort_perm _ _
  · exact Lib.Clusters.descending_clusters modeEqualResHz_iff
      (descending_modeCandidates head.modes)
  · intro line hline
    have hmem (e : ModeEntry) := mem_line_iff hline (e := e)
    refine ⟨hmem, ?_⟩
    have hsorted := sorted_modeCandidates head.modes
    rw [Lib.ShellSort.Sorted, ← hmembers, List.pairwise_flatMap] at hsorted
    apply (hsorted.1 line hline).imp_of_mem
    intro a b ha hb h
    have hsize := ((hmem b).mp hb).2.1.trans ((hmem a).mp ha).2.1.symm
    exact (modeGreaterThanResRefresh_eq_false.mp h).refreshMhz hsize

/-! ### The numbers of a line -/

/-- Numbers that arguments can say. -/
structure Sayable (mode : Mode) : Prop where
  width : 0 < mode.width ∧ IsInt32 mode.width
  height : 0 < mode.height ∧ IsInt32 mode.height
  hz : 0 < modeHzRounded mode ∧ IsInt32 (modeHzRounded mode * 1000)

def runs (cs : List Char) : List (List Char) :=
  (cs.splitOnP (fun c => !c.isDigit)).filter (· ≠ [])

/-- What a reader takes for numbers. -/
def numerals (text : String) : List String := (runs text.toList).map String.ofList

theorem runs_digits {ds : List Char} (hds : ∀ c ∈ ds, c.isDigit = true) {c : Char}
    (hc : c.isDigit = false) (rest : List Char) :
    runs (ds ++ c :: rest) = [ds].filter (· ≠ []) ++ runs rest := by
  rw [runs, List.splitOnP_append_cons_of_forall_mem (by simpa using hds) c (by simp [hc])]
  exact List.filter_append [ds] _

theorem runs_skip {cs : List Char} (h : ∀ c ∈ cs, c.isDigit = false) (rest : List Char) :
    runs (cs ++ rest) = runs rest := by
  induction cs with
  | nil => rfl
  | cons c cs ih =>
    have hskip : runs (c :: (cs ++ rest)) = runs (cs ++ rest) :=
      runs_digits (fun _ hd => absurd hd List.not_mem_nil) (h c List.mem_cons_self) (cs ++ rest)
    rw [List.cons_append, hskip, ih (fun d hd => h d (List.mem_cons_of_mem c hd))]

theorem runs_field {before : List Char} (hbefore : ∀ c ∈ before, c.isDigit = false)
    (width n : ℕ) {c : Char} (hc : c.isDigit = false) (rest : List Char) :
    runs (before ++ ((snprintfIntWidth width n).toList ++ c :: rest)) =
      (snprintfInt n).toList :: runs rest := by
  have hdigits : (snprintfInt n).toList = Lib.Decimal.digits n := by
    simp [snprintfInt, Lib.Decimal.writeInt]
  have hspaces : ∀ d ∈ List.replicate (width - (snprintfInt n).toList.length) ' ',
      d.isDigit = false := by
    intro d hd
    rw [List.eq_of_mem_replicate hd]
    rfl
  have hall : ∀ d ∈ (snprintfInt n).toList, d.isDigit = true := by
    rw [hdigits]
    exact fun d hd => Lib.Decimal.isDigit_of_mem_padded hd
  have hne : (snprintfInt n).toList ≠ [] := by
    obtain ⟨d, ds, -, hcons⟩ := Lib.Decimal.exists_digit_digits n
    simp [hdigits, hcons]
  rw [runs_skip hbefore, snprintfIntWidth, String.toList_ofList, List.leftpad, List.append_assoc,
    runs_skip hspaces, runs_digits hall hc, List.filter_cons_of_pos (by simpa using hne)]
  rfl

/-- The modes of a line stand behind what it starts with. -/
theorem toList_foldl_modeLineAppend (modePref : Option ModeEntry) (members : List ModeEntry)
    (msg : String) : ∃ behind,
      (members.foldl (modeLineAppend modePref) msg).toList = msg.toList ++ behind := by
  induction members generalizing msg with
  | nil => exact ⟨[], (List.append_nil _).symm⟩
  | cons e members ih =>
    obtain ⟨behind, hbehind⟩ := ih (modeLineAppend modePref msg e)
    have happend : ∃ text, (modeLineAppend modePref msg e).toList = msg.toList ++ text := by
      simp only [modeLineAppend]
      split <;> simp only [String.toList_append, List.append_assoc] <;> exact ⟨_, rfl⟩
    obtain ⟨text, htext⟩ := happend
    exact ⟨text ++ behind, by rw [List.foldl_cons, hbehind, htext, List.append_assoc]⟩

/-- The arguments for the size and the Hz that a line starts with. -/
def lineArguments (mode : Mode) : List String :=
  [snprintfInt mode.width, snprintfInt mode.height, snprintfInt (modeHzRounded mode)]

/-- The first numbers of a printed line are those it starts with. -/
theorem numerals_modeLineMsg (modePref : Option ModeEntry) {line : Cluster ModeEntry}
    (h : Sayable line.first.2) :
    (numerals (modeLineMsg modePref line)).take 3 = lineArguments line.first.2 := by
  obtain ⟨width, hwidth⟩ := Int.eq_ofNat_of_zero_le h.width.1.le
  obtain ⟨height, hheight⟩ := Int.eq_ofNat_of_zero_le h.height.1.le
  obtain ⟨hz, hhz⟩ := Int.eq_ofNat_of_zero_le h.hz.1.le
  have hplain (text : String) (hall : text.toList.all (fun c => !c.isDigit) = true) :
      ∀ c ∈ text.toList, c.isDigit = false := by simpa using hall
  have hmsg : ∃ behind, (modeLineMsg modePref line).toList =
      "    mode:     ".toList ++ ((snprintfIntWidth 5 width).toList ++ ' ' ::
        ("x".toList ++ ((snprintfIntWidth 5 height).toList ++ ' ' ::
          ("@".toList ++ ((snprintfIntWidth 4 hz).toList ++ ' ' :: behind))))) := by
    obtain ⟨behind, hbehind⟩ := toList_foldl_modeLineAppend modePref line.members
      ("    mode:     " ++ snprintfIntWidth 5 line.first.2.width ++ " x" ++
        snprintfIntWidth 5 line.first.2.height ++ " @" ++
          snprintfIntWidth 4 (modeHzRounded line.first.2) ++ " Hz ")
    have hx : " x".toList = ' ' :: "x".toList := rfl
    have hat : " @".toList = ' ' :: "@".toList := rfl
    have hend : " Hz ".toList = ' ' :: "Hz ".toList := rfl
    refine ⟨"Hz ".toList ++ behind, ?_⟩
    rw [modeLineMsg, hbehind, hwidth, hheight, hhz]
    simp only [String.toList_append, hx, hat, hend, List.append_assoc, List.cons_append]
  obtain ⟨behind, hbehind⟩ := hmsg
  rw [numerals, hbehind, runs_field (hplain "    mode:     " rfl) _ _ rfl,
    runs_field (hplain "x" rfl) _ _ rfl, runs_field (hplain "@" rfl) _ _ rfl]
  simp only [List.map_cons, String.ofList_toList, List.take_succ_cons, List.take_zero,
    lineArguments, hwidth, hheight, hhz]

theorem toDouble_natCast {n : Nat} (hlt : n < 2 ^ 53) : toDouble n = n := by
  have hnear : Lib.Rounding.Near 0 (n : ℚ) (n * ((2 : ℕ) : ℚ) ^ (0 : ℤ)) := by
    simp [Lib.Rounding.Near]
  have hexact := significant_of_near (b := 2) (p := 53) (by decide) hlt (by norm_num) hnear
  rw [zpow_zero, mul_one] at hexact
  exact hexact

theorem atof_snprintfInt {n : Nat} (hlt : n < 2 ^ 53) : atof (snprintfInt n) = .number n := by
  obtain ⟨c, cs, hc, hcs⟩ := Lib.Decimal.exists_digit_writeFixed n 0
  have hwritten : Lib.Decimal.writeInt n = Lib.Decimal.writeFixed n 0 := by
    simp [Lib.Decimal.writeInt, Lib.Decimal.writeFixed]
  have hspace : (Lib.Decimal.writeFixed n 0).dropWhile isSpace = Lib.Decimal.writeFixed n 0 := by
    rw [hcs, dropWhile_isSpace_of_digit hc]
  have hread : Lib.Decimal.readDecimal (Lib.Decimal.writeFixed n 0) = some (n : ℚ) := by
    rw [hcs, Lib.Decimal.readDecimal_of_digit hc, ← hcs, Lib.Decimal.readUnsigned_writeFixed]
    simp
  rw [atof, snprintfInt, hwritten, strtofloating_of_numeral toDouble
    (fun c hc => Lib.Decimal.numeral_of_mem_writeFixed hc) hspace hread, toDouble_natCast hlt]

theorem argsModeRefresh_snprintfInt (mode : Mode) {hz : Int} (hpos : 0 < hz)
    (hint : IsInt32 (hz * 1000)) :
    argsModeRefresh mode [snprintfInt hz] = some { mode with refreshMhz := hz * 1000 } := by
  obtain ⟨n, rfl⟩ : ∃ n : ℕ, hz = n := ⟨hz.toNat, by omega⟩
  have hlt : n * 1000 < 2 ^ 31 := by
    have := hint.2
    omega
  have hmhz : toDouble ((n : ℚ) * 1000) = ((n * 1000 : ℕ) : ℚ) := by
    rw [← toDouble_natCast (n := n * 1000) (by omega)]
    push_cast
    rfl
  have hround : roundNearest ((n * 1000 : ℕ) : ℚ) = (n : Int) * 1000 := by
    have hclose : |((n * 1000 : ℕ) : ℚ) - ((n * 1000 : ℤ) : ℚ)| < 1 / 2 := by
      push_cast
      norm_num
    exact Lib.Quantise.nearestAway_eq_of_close hclose
  rw [argsModeRefresh, atof_snprintfInt (by omega), lroundMhz, hmhz, hround, toInt32_eq hint]
  exact if_pos (by omega)

theorem argsMode_lineArguments {mode : Mode} (h : Sayable mode) :
    argsMode (lineArguments mode) = some { modeInit with
      width := mode.width, height := mode.height, refreshMhz := modeHzRounded mode * 1000 } := by
  obtain ⟨⟨hwidth, hwint⟩, ⟨hheight, hhint⟩, hhz, hzint⟩ := h
  have hnotMax : ¬ strcasecmpEqual (snprintfInt mode.width) "MAX" = true := by
    simp [strcasecmpEqual_snprintfInt hwidth]
  rw [lineArguments, argsMode, if_neg hnotMax, atoi_snprintfInt hwint, atoi_snprintfInt hhint]
  dsimp only
  rw [if_pos ⟨hwidth, hheight⟩, argsModeRefresh_snprintfInt _ hhz hzint]

theorem modeHzRounded_whole {mode : Mode} {hz : Int} (hpos : 0 < hz)
    (h : mode.refreshMhz = hz * 1000) : modeHzRounded mode = hz := by
  rw [modeHzRounded, h, Int.tdiv_eq_ediv_of_nonneg (by omega)]
  omega

/-- What the numbers of a line find is on the line: a mode of exactly so many Hz if there is
one, and the first otherwise. -/
theorem modeBestSatisfying_line {modes : Modes} {line : Cluster ModeEntry}
    (hline : line ∈ modeLines modes) {target : Mode} (hmax : target.max = false)
    (hsize : SameSize line.first.2 target) (hpos : 0 < modeHzRounded line.first.2)
    (hrefresh : target.refreshMhz = modeHzRounded line.first.2 * 1000) :
    ∃ found ∈ line.members, modeBestSatisfying target modes = some found ∧
      (found.2.refreshMhz = modeHzRounded line.first.2 * 1000 ∨
        found = line.first ∧
          ∀ e ∈ line.members, e.2.refreshMhz ≠ modeHzRounded line.first.2 * 1000) := by
  have hhz : modeHzRounded target = modeHzRounded line.first.2 :=
    modeHzRounded_whole hpos hrefresh
  have hsuits {e : ModeEntry} : e ∈ line.members ↔ e ∈ modes.entries ∧ Suits target e.2 := by
    rw [mem_line_iff hline, Suits, hhz]
    refine and_congr_right fun _ => ⟨fun h => ?_, fun h => ?_⟩
    · exact ⟨h.1.trans hsize, fun _ => h.2⟩
    · exact ⟨h.1.trans hsize.symm, h.2 (by omega)⟩
  unfold modeBestSatisfying
  cases hexact : (modeCandidates modes).find? (fun e => modeEqualResMhz e.2 target) with
  | some found =>
    have hequal := modeEqualResMhz_iff.mp (find?_modeCandidates hexact).2.1
    refine ⟨found, ?_, rfl, Or.inl (hequal.2.trans hrefresh)⟩
    exact hsuits.mpr ⟨(find?_modeCandidates hexact).1, hequal.suits⟩
  | none =>
    have hinexact : ∀ e ∈ line.members,
        e.2.refreshMhz ≠ modeHzRounded line.first.2 * 1000 := by
      intro e he heq
      obtain ⟨hmem, hsuit⟩ := hsuits.mp he
      have hdiffers := find?_modeCandidates_eq_none.mp hexact e hmem
      rw [modeEqualResMhz_iff.mpr ⟨hsuit.1, heq.trans hrefresh.symm⟩] at hdiffers
      exact absurd hdiffers (by simp)
    refine ⟨line.first, line.first_mem, ?_, Or.inr ⟨rfl, hinexact⟩⟩
    obtain ⟨before, after, hsplit⟩ := List.append_of_mem hline
    refine Lib.Clusters.find?_of_split _ hsplit ?_ ?_
    · exact modeSatisfies_iff.mpr (Or.inr (hsuits.mp line.first_mem).2)
    · -- what is above the line is not of its size and Hz
      intro above habove e he
      have hdescends := Lib.Clusters.descending_clusters modeEqualResHz_iff
        (descending_modeCandidates modes)
      change (modeLines modes).Pairwise _ at hdescends
      rw [hsplit, List.pairwise_append] at hdescends
      have hlt := hdescends.2.2 above habove line List.mem_cons_self
      have habove' : above ∈ modeLines modes := by
        rw [hsplit]
        exact List.mem_append_left _ habove
      obtain ⟨hmem, hsame⟩ := (mem_line_iff habove').mp he
      rw [Bool.eq_false_iff, Ne, modeSatisfies_iff]
      rintro (hanything | hsuit)
      · simp [hmax] at hanything
      · have hon := (mem_line_iff hline).mp (hsuits.mpr ⟨hmem, hsuit⟩)
        rw [← lineKey_eq_iff] at hsame
        rw [← lineKey_eq_iff] at hon
        exact absurd (hsame.symm.trans hon.2) hlt.ne'

/-- The first three numbers of a printed line, said to the client, are a user MODE that chooses a
mode of that line. -/
theorem listed_chosen [Platform] {head : Head}
    (hsayable : ∀ e ∈ head.modes.entries, Sayable e.2) {text : String}
    (htext : text ∈ printModesResRefresh head) :
    ∃ line ∈ modeLines head.modes, text = modeLineMsg (headModePref head) line ∧
      ∃ target, argsMode ((numerals text).take 3) = some target ∧
        ∃ found ∈ line.members,
          (found.2.refreshMhz = modeHzRounded line.first.2 * 1000 ∨
            found = line.first ∧
              ∀ e ∈ line.members, e.2.refreshMhz ≠ modeHzRounded line.first.2 * 1000) ∧
          ∀ cfg, cfgMode cfg head = some target → (headFindMode cfg head).2.2 = some found.1 := by
  obtain ⟨line, hline, rfl⟩ := List.mem_map.mp htext
  have hfirst := hsayable _ ((mem_line_iff hline).mp line.first_mem).1
  have hread := argsMode_lineArguments hfirst
  rw [← numerals_modeLineMsg (headModePref head) hfirst] at hread
  obtain ⟨found, hmem, hbest, hwhich⟩ := @modeBestSatisfying_line head.modes line hline
    { modeInit with
      width := line.first.2.width, height := line.first.2.height
      refreshMhz := modeHzRounded line.first.2 * 1000 }
    rfl ⟨rfl, rfl⟩ hfirst.hz.1 rfl
  refine ⟨line, hline, rfl, _, hread, found, hmem, hwhich, fun cfg hcfg => ?_⟩
  have hentry := ((mem_line_iff hline).mp hmem).1
  have hne : head.modes.size ≠ 0 := (List.length_pos_of_mem hentry).ne'
  rw [headFindMode_eq hne, hcfg, Option.bind_some, headUserMode_of_best hbest]
  rfl

def threeRates : Head := displayWith [fullHd 60020, fullHd 60000, fullHd 59940]

def askedHz60 : Cfg := { cfgInit with modes := OrderedMap.empty.put "DP-1" (fullHd 60000) }

theorem listed_chosen_threeRates : let _ : Platform := plainPlatform
    ∃ text ∈ printModesResRefresh threeRates,
      argsMode ((numerals text).take 3) = some (fullHd 60000) ∧
        (headFindMode askedHz60 threeRates).2.2 = some ⟨1⟩ := by
  intro _
  let line : Cluster ModeEntry :=
    ⟨(⟨0⟩, fullHd 60020), [(⟨1⟩, fullHd 60000), (⟨2⟩, fullHd 59940)]⟩
  have hlines : modeLines threeRates.modes = [line] := by decide +kernel
  have hentries : threeRates.modes.entries = line.members := by decide +kernel
  have hcfg : cfgMode askedHz60 threeRates = some (fullHd 60000) := by decide +kernel
  have hsayable : ∀ e ∈ threeRates.modes.entries, Sayable e.2 := by
    intro e he
    rw [hentries] at he
    simp only [line, Cluster.members, List.mem_cons, List.not_mem_nil, or_false] at he
    rcases he with rfl | rfl | rfl <;>
      exact ⟨⟨by decide, by decide, by decide⟩, ⟨by decide, by decide, by decide⟩,
        ⟨by decide, by decide, by decide⟩⟩
  have htext : modeLineMsg (headModePref threeRates) line ∈ printModesResRefresh threeRates := by
    rw [printModesResRefresh, hlines]
    exact List.mem_singleton_self _
  obtain ⟨line', hline', -, target, htarget, found, hfound, hwhich, hchosen⟩ :=
    listed_chosen hsayable htext
  obtain rfl : line' = line := List.mem_singleton.mp (hlines ▸ hline')
  have hfirst : Sayable line.first.2 := hsayable _ (hentries ▸ line.first_mem)
  have hread := argsMode_lineArguments hfirst
  rw [← numerals_modeLineMsg (headModePref threeRates) hfirst] at hread
  obtain rfl := Option.some.inj (hread.symm.trans htarget)
  have hexact : found = (⟨1⟩, fullHd 60000) := by
    rcases hwhich with hrefresh | ⟨_, hinexact⟩
    · simp only [line, Cluster.members, List.mem_cons, List.not_mem_nil, or_false] at hfound
      rcases hfound with rfl | rfl | rfl
      · exact absurd hrefresh (by decide)
      · rfl
      · exact absurd hrefresh (by decide)
    · exact absurd rfl (hinexact (⟨1⟩, fullHd 60000) (by simp [line, Cluster.members]))
  refine ⟨_, htext, htarget, ?_⟩
  rw [hchosen askedHz60 hcfg, hexact]

end WayDisplays.Choice.Listing
