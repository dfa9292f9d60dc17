/-!
# Named characters

The names that may stand between an ampersand and a semicolon. The names of a line have the same
start, which stands in front; the endings follow, each with the characters that the name stands for.
-/

namespace Compendium.Markdown

/-- A start, then endings of letters and digits, each followed by its characters. -/
def namedCharacterLines : List String := [
  "A EligÆ MP& acuteÁ breveĂ circÂ",
  "A cyА fr𝔄 graveÀ lphaΑ macrĀ nd⩓ ogonĄ opf𝔸 pplyFunction\u2061 ringÅ scr𝒜 ssign≔ tildeÃ umlÄ",
  "B ackslash∖ arv⫧ arwed⌆ cyБ ecause∵ ernoullisℬ etaΒ fr𝔅 opf𝔹 reve˘ scrℬ umpeq≎",
  "C HcyЧ OPY© acuteĆ",
  "C ap⋒ apitalDifferentialDⅅ ayleysℭ caronČ cedilÇ circĈ conint∰ dotĊ edilla¸ enterDot· frℭ hiΧ",
  "Circle Dot⊙ Minus⊖ Plus⊕ Times⊗",
  "Clo ckwiseContourIntegral∲ seCurlyDoubleQuote” seCurlyQuote’",
  "Co lon∷ lone⩴ ngruent≡ nint∯ ntourIntegral∮ pfℂ product∐ unterClockwiseContourIntegral∳",
  "C ross⨯ scr𝒞 up⋓ upCap≍",
  "D Dⅅ Dotrahd⤑ JcyЂ ScyЅ ZcyЏ agger‡ arr↡ ashv⫤ caronĎ cyД el∇ eltaΔ fr𝔇",
  "Diacritical Acute´ Dot˙ DoubleAcute˝ Grave` Tilde˜",
  "D iamond⋄ ifferentialDⅆ opf𝔻 ot¨ otDot\u20dc otEqual≐",
  "Double ContourIntegral∯ Dot¨ DownArrow⇓ LeftArrow⇐ LeftRightArrow⇔ LeftTee⫤",
  "DoubleLongLeft Arrow⟸ RightArrow⟺",
  "Double LongRightArrow⟹ RightArrow⇒ RightTee⊨ UpArrow⇑ UpDownArrow⇕ VerticalBar∥",
  "DownArrow ↓ Bar⤓ UpArrow⇵",
  "DownBreve \u0311",
  "DownLeft RightVector⥐ TeeVector⥞ Vector↽ VectorBar⥖",
  "DownRight TeeVector⥟ Vector⇁ VectorBar⥗",
  "Down Tee⊤ TeeArrow↧ arrow⇓",
  "Ds cr𝒟 trokĐ",
  "E NGŊ THÐ acuteÉ caronĚ circÊ cyЭ dotĖ fr𝔈 graveÈ lement∈ macrĒ",
  "Empty SmallSquare◻ VerySmallSquare▫",
  "E ogonĘ opf𝔼 psilonΕ qual⩵ qualTilde≂ quilibrium⇌ scrℰ sim⩳ taΗ umlË xists∃ xponentialEⅇ",
  "F cyФ fr𝔉 illedSmallSquare◼ illedVerySmallSquare▪ opf𝔽 orAll∀ ouriertrfℱ scrℱ",
  "G JcyЃ T> ammaΓ ammadϜ breveĞ cedilĢ circĜ cyГ dotĠ fr𝔊 g⋙ opf𝔾",
  "Greater Equal≥ EqualLess⋛ FullEqual≧ Greater⪢ Less≷ SlantEqual⩾ Tilde≳",
  " Gscr𝒢 Gt≫ HARDcyЪ",
  "H acekˇ at^ circĤ frℌ ilbertSpaceℋ opfℍ orizontalLine─ scrℋ strokĦ umpDownHump≎ umpEqual≏",
  "I EcyЕ JligĲ OcyЁ acuteÍ circÎ cyИ dotİ frℑ graveÌ mℑ macrĪ maginaryIⅈ mplies⇒ nt∬ ntegral∫",
  "I ntersection⋂ nvisibleComma\u2063 nvisibleTimes\u2062 ogonĮ opf𝕀 otaΙ scrℐ tildeĨ ukcyІ umlÏ",
  "J circĴ cyЙ fr𝔍 opf𝕁 scr𝒥 sercyЈ ukcyЄ",
  "K HcyХ JcyЌ appaΚ cedilĶ cyК fr𝔎 opf𝕂 scr𝒦",
  "L JcyЉ T< acuteĹ ambdaΛ ang⟪ aplacetrfℒ arr↞ caronĽ cedilĻ cyЛ",
  "Left AngleBracket⟨ Arrow← ArrowBar⇤ ArrowRightArrow⇆ Ceiling⌈ DoubleBracket⟦ DownTeeVector⥡",
  "LeftDownVector ⇃ Bar⥙",
  "Left Floor⌊ RightArrow↔ RightVector⥎ Tee⊣ TeeArrow↤ TeeVector⥚",
  "LeftTriangle ⊲ Bar⧏ Equal⊴",
  "Left UpDownVector⥑ UpTeeVector⥠ UpVector↿ UpVectorBar⥘ Vector↼ VectorBar⥒ arrow⇐ rightarrow⇔",
  "Less EqualGreater⋚ FullEqual≦ Greater≶ Less⪡ SlantEqual⩽ Tilde≲",
  "L fr𝔏 l⋘ leftarrow⇚ midotĿ",
  "Long LeftArrow⟵ LeftRightArrow⟷ RightArrow⟶ leftarrow⟸ leftrightarrow⟺ rightarrow⟹",
  "L opf𝕃 owerLeftArrow↙ owerRightArrow↘ scrℒ sh↰ strokŁ t≪",
  "M ap⤅ cyМ ediumSpace\u205f ellintrfℳ fr𝔐 inusPlus∓ opf𝕄 scrℳ uΜ",
  "N JcyЊ acuteŃ caronŇ cedilŅ cyН",
  "Negative MediumSpace\u200b ThickSpace\u200b ThinSpace\u200b VeryThinSpace\u200b",
  "N estedGreaterGreater≫ estedLessLess≪ ewLine\n fr𝔑 oBreak\u2060 onBreakingSpace\u00a0 opfℕ",
  "Not ⫬ Congruent≢ CupCap≭ DoubleVerticalBar∦ Element∉ Equal≠ EqualTilde≂̸ Exists∄",
  "NotGreater ≯ Equal≱ FullEqual≧̸ Greater≫̸ Less≹ SlantEqual⩾̸ Tilde≵",
  "NotHump DownHump≎̸ Equal≏̸",
  "NotLeftTriangle ⋪ Bar⧏̸ Equal⋬",
  "NotLess ≮ Equal≰ Greater≸ Less≪̸ SlantEqual⩽̸ Tilde≴",
  "NotNested GreaterGreater⪢̸ LessLess⪡̸",
  "NotPrecedes ⊀ Equal⪯̸ SlantEqual⋠",
  "NotReverseElement ∌",
  "NotRightTriangle ⋫ Bar⧐̸ Equal⋭",
  "NotSquareSu bset⊏̸ bsetEqual⋢ perset⊐̸ persetEqual⋣",
  "NotSubset ⊂⃒ Equal⊈",
  "NotSucceeds ⊁ Equal⪰̸ SlantEqual⋡ Tilde≿̸",
  "NotSuperset ⊃⃒ Equal⊉",
  "NotTilde ≁ Equal≄ FullEqual≇ Tilde≉",
  "N otVerticalBar∤ scr𝒩 tildeÑ uΝ",
  "O EligŒ acuteÓ circÔ cyО dblacŐ fr𝔒 graveÒ macrŌ megaΩ micronΟ opf𝕆",
  "OpenCurly DoubleQuote“ Quote‘",
  "O r⩔ scr𝒪 slashØ tildeÕ times⨷ umlÖ",
  "Over Bar‾ Brace⏞ Bracket⎴ Parenthesis⏜",
  "P artialD∂ cyП fr𝔓 hiΦ iΠ lusMinus± oincareplaneℌ opfℙ r⪻",
  "Precedes ≺ Equal⪯ SlantEqual≼ Tilde≾",
  "P rime″ roduct∏ roportion∷ roportional∝ scr𝒫 siΨ",
  "Q UOT\" fr𝔔 opfℚ scr𝒬",
  "R Barr⤐ EG® acuteŔ ang⟫ arr↠ arrtl⤖ caronŘ cedilŖ cyР eℜ",
  "Reverse Element∋ Equilibrium⇋ UpEquilibrium⥯",
  "R frℜ hoΡ ightAngleBracket⟩",
  "RightArrow → Bar⇥ LeftArrow⇄",
  "Right Ceiling⌉ DoubleBracket⟧ DownTeeVector⥝ DownVector⇂ DownVectorBar⥕ Floor⌋",
  "RightTee ⊢ Arrow↦ Vector⥛",
  "RightTriangle ⊳ Bar⧐ Equal⊵",
  "Right UpDownVector⥏ UpTeeVector⥜ UpVector↾ UpVectorBar⥔ Vector⇀ VectorBar⥓ arrow⇒",
  "R opfℝ oundImplies⥰ rightarrow⇛ scrℛ sh↱ uleDelayed⧴",
  "S HCHcyЩ HcyШ OFTcyЬ acuteŚ c⪼ caronŠ cedilŞ circŜ cyС fr𝔖",
  "Short DownArrow↓ LeftArrow← RightArrow→ UpArrow↑",
  "S igmaΣ mallCircle∘ opf𝕊 qrt√",
  "Square □ Intersection⊓ Subset⊏ SubsetEqual⊑ Superset⊐ SupersetEqual⊒ Union⊔",
  "S scr𝒮 tar⋆ ub⋐ ubset⋐ ubsetEqual⊆",
  "Succeeds ≻ Equal⪰ SlantEqual≽ Tilde≿",
  "Su chThat∋ m∑ p⋑ perset⊃ persetEqual⊇ pset⋑",
  "T HORNÞ RADE™ SHcyЋ ScyЦ ab\t auΤ caronŤ cedilŢ cyТ fr𝔗",
  "Th erefore∴ etaΘ ickSpace\u205f\u200a inSpace\u2009",
  "Tilde ∼ Equal≃ FullEqual≅ Tilde≈",
  "T opf𝕋 ripleDot\u20db scr𝒯 strokŦ",
  "U acuteÚ arr↟ arrocir⥉ brcyЎ breveŬ circÛ cyУ dblacŰ fr𝔘 graveÙ macrŪ",
  "Under Bar_ Brace⏟ Bracket⎵ Parenthesis⏝",
  "U nion⋃ nionPlus⊎ ogonŲ opf𝕌",
  "UpArrow ↑ Bar⤒ DownArrow⇅",
  "Up DownArrow↕ Equilibrium⥮ Tee⊥ TeeArrow↥ arrow⇑ downarrow⇕ perLeftArrow↖ perRightArrow↗ siϒ",
  "U psilonΥ ringŮ scr𝒰 tildeŨ umlÜ",
  "V Dash⊫ bar⫫ cyВ dash⊩ dashl⫦ ee⋁ erbar‖ ert‖",
  "Vertical Bar∣ Line| Separator❘ Tilde≀",
  "V eryThinSpace\u200a fr𝔙 opf𝕍 scr𝒱 vdash⊪",
  "W circŴ edge⋀ fr𝔚 opf𝕎 scr𝒲",
  "X fr𝔛 iΞ opf𝕏 scr𝒳",
  "Y AcyЯ IcyЇ UcyЮ acuteÝ circŶ cyЫ fr𝔜 opf𝕐 scr𝒴 umlŸ",
  "Z HcyЖ acuteŹ caronŽ cyЗ dotŻ eroWidthSpace\u200b etaΖ frℨ opfℤ scr𝒵",
  "a acuteá breveă c∾ cE∾̳ cd∿ circâ cute´ cyа eligæ f\u2061 fr𝔞 graveà lefsymℵ lephℵ lphaα",
  "am acrā alg⨿ p&",
  "an d∧ dand⩕ dd⩜ dslope⩘ dv⩚ g∠ ge⦤ gle∠ gmsd∡",
  "angmsda a⦨ b⦩ c⦪ d⦫ e⦬ f⦭ g⦮ h⦯",
  "ang rt∟ rtvb⊾ rtvbd⦝ sph∢ stÅ zarr⍼",
  "a ogoną opf𝕒 p≈ pE⩰ pacir⩯ pe≊ pid≋ pos' pprox≈ pproxeq≊ ringå scr𝒶 st* symp≈ sympeq≍ tildeã",
  " aumlä awconint∳ awint⨑ bNot⫭",
  "back cong≌ epsilon϶ prime‵ sim∽ simeq⋍",
  "bar vee⊽ wed⌅ wedge⌅",
  "b brk⎵ brktbrk⎶ cong≌ cyб dquo„ ecaus∵ ecause∵ emptyv⦰ epsi϶ ernouℬ etaβ ethℶ etween≬ fr𝔟",
  "big cap⋂ circ◯ cup⋃ odot⨀ oplus⨁ otimes⨂ sqcup⨆ star★ triangledown▽ triangleup△ uplus⨄ vee⋁",
  "b igwedge⋀ karow⤍ lacklozenge⧫ lacksquare▪",
  "blacktriangle ▴ down▾ left◂ right▸",
  "b lank␣ lk12▒ lk14░ lk34▓ lock█ ne=⃥ nequiv≡⃥ not⌐ opf𝕓 ot⊥ ottom⊥ owtie⋈",
  "box DL╗ DR╔ Dl╖ Dr╓ H═ HD╦ HU╩ Hd╤ Hu╧ UL╝ UR╚ Ul╜ Ur╙ V║ VH╬ VL╣ VR╠ Vh╫ Vl╢ Vr╟ box⧉ dL╕ dR╒",
  "box dl┐ dr┌ h─ hD╥ hU╨ hd┬ hu┴ minus⊟ plus⊞ times⊠ uL╛ uR╘ ul┘ ur└ v│ vH╪ vL╡ vR╞ vh┼ vl┤ vr├",
  "b prime‵ reve˘ rvbar¦ scr𝒷 semi⁏ sim∽ sime⋍ sol\\ solb⧅ solhsub⟈ ull• ullet•",
  "bump ≎ E⪮ e≏ eq≏",
  "ca cuteć p∩ pand⩄ pbrcup⩉ pcap⩋ pcup⩇ pdot⩀ ps∩\ufe00 ret⁁ ronˇ",
  "cc aps⩍ aronč edilç ircĉ ups⩌ upssm⩐",
  "c dotċ edil¸ emptyv⦲ ent¢ enterdot· fr𝔠 hcyч heck✓ heckmark✓ hiχ ir○ irE⧃ ircˆ irceq≗",
  "circle arrowleft↺ arrowright↻ dR® dSⓈ dast⊛ dcirc⊚ ddash⊝",
  "cir e≗ fnint⨐ mid⫯ scir⧂",
  "clubs ♣ uit♣",
  "co lon: lone≔ loneq≔ mma, mmat@ mp∁ mpfn∘ mplement∁ mplexesℂ ng≅ ngdot⩭ nint∮ pf𝕔 prod∐ py©",
  "c opysr℗ rarr↵ ross✗ scr𝒸 sub⫏ sube⫑ sup⫐ supe⫒ tdot⋯",
  "cu darrl⤸ darrr⤵ epr⋞ esc⋟ larr↶ larrp⤽ p∪ pbrcap⩈ pcap⩆ pcup⩊ pdot⊍ por⩅ ps∪\ufe00",
  "cur arr↷ arrm⤼ lyeqprec⋞ lyeqsucc⋟ lyvee⋎ lywedge⋏ ren¤ vearrowleft↶ vearrowright↷",
  "c uvee⋎ uwed⋏ wconint∲ wint∱ ylcty⌭",
  "d Arr⇓ Har⥥ agger† alethℸ arr↓ ash‐ ashv⊣",
  "d bkarow⤏ blac˝ caronď cyд dⅆ dagger‡ darr⇊ dotseq⩷ eg° eltaδ emptyv⦱ fisht⥿ fr𝔡 harl⇃ harr⇂",
  "di am⋄ amond⋄ amondsuit♦ ams♦ e¨ gammaϝ sin⋲ v÷ vide÷ videontimes⋇ vonx⋇",
  "d jcyђ lcorn⌞ lcrop⌍",
  "do llar$ pf𝕕 t˙ teq≐ teqdot≑ tminus∸ tplus∔ tsquare⊡ ublebarwedge⌆ wnarrow↓ wndownarrows⇊",
  "downharpoon left⇃ right⇂",
  "dr bkarow⤐ corn⌟ crop⌌",
  "d scr𝒹 scyѕ sol⧶ strokđ tdot⋱ tri▿ trif▾ uarr⇵ uhar⥯ wangle⦦ zcyџ zigrarr⟿",
  "e DDot⩷ Dot≑ acuteé aster⩮ caroně cir≖ circê colon≕ cyэ dotė eⅇ fDot≒ fr𝔢 g⪚ graveè gs⪖ gsdot⪘",
  "el ⪙ inters⏧ lℓ s⪕ sdot⪗",
  "em acrē pty∅ ptyset∅ ptyv∅ sp\u2003 sp13\u2004 sp14\u2005",
  "e ngŋ nsp\u2002 ogonę opf𝕖 par⋕ parsl⧣ plus⩱ psiε psilonε psivϵ",
  "eq circ≖ colon≕ sim≂ slantgtr⪖ slantless⪕ uals= uest≟ uiv≡ uivDD⩸ vparsl⧥",
  "e rDot≓ rarr⥱ scrℯ sdot≐ sim≂ taη thð umlë uro€ xcl! xist∃ xpectationℰ xponentialeⅇ",
  "f allingdotseq≒ cyф",
  "f emale♀ filigﬃ fligﬀ flligﬄ fr𝔣 iligﬁ lat♭ lligﬂ ltns▱ nofƒ opf𝕗 orall∀ ork⋔ orkv⫙ partint⨍",
  "frac 12½ 13⅓ 14¼ 15⅕ 16⅙ 18⅛ 23⅔ 25⅖ 34¾ 35⅗ 38⅜ 45⅘ 56⅚ 58⅝ 78⅞",
  "f rasl⁄ rown⌢ scr𝒻",
  "g E≧ El⪌ acuteǵ ammaγ ammadϝ ap⪆ breveğ circĝ cyг dotġ e≥ el⋛ eq≥ eqq≧ eqslant⩾",
  "ges ⩾ cc⪩ dot⪀ doto⪂ dotol⪄ l⋛\ufe00 les⪔",
  "g fr𝔤 g≫ gg⋙ imelℷ jcyѓ l≷ lE⪒ la⪥ lj⪤ nE≩ nap⪊ napprox⪊ ne⪈ neq⪈ neqq≩ nsim⋧ opf𝕘 rave` scrℊ",
  "gsim ≳ e⪎ l⪐",
  "gt > cc⪧ cir⩺ dot⋗ lPar⦕ quest⩼ rapprox⪆ rarr⥸ rdot⋗ reqless⋛ reqqless⪌ rless≷ rsim≳",
  " gvertneqq≩\ufe00 gvnE≩\ufe00 hArr⇔",
  "ha irsp\u200a lf½ miltℋ rdcyъ rr↔ rrcir⥈ rrw↭",
  "h barℏ circĥ earts♥ eartsuit♥ ellip… ercon⊹ fr𝔥 ksearow⤥ kswarow⤦",
  "h oarr⇿ omtht∻ ookleftarrow↩ ookrightarrow↪ opf𝕙 orbar― scr𝒽 slashℏ strokħ ybull⁃ yphen‐",
  "i acuteí c\u2063 circî cyи ecyе excl¡ ff⇔ fr𝔦 graveì iⅈ iiint⨌ iint∭ infin⧜ iota℩ jligĳ",
  "im acrī ageℑ aglineℐ agpartℑ athı of⊷ pedƵ",
  "in ∈ care℅ fin∞ fintie⧝ odotı t∫ tcal⊺ tegersℤ tercal⊺ tlarhk⨗ tprod⨼",
  "i ocyё ogonį opf𝕚 otaι prod⨼ quest¿ scr𝒾",
  "isin ∈ E⋹ dot⋵ s⋴ sv⋳ v∈",
  "i t\u2062 tildeĩ ukcyі umlï",
  "j circĵ cyй fr𝔧 mathȷ opf𝕛 scr𝒿 sercyј ukcyє",
  "k appaκ appavϰ cedilķ cyк fr𝔨 greenĸ hcyх jcyќ opf𝕜 scr𝓀",
  "l Aarr⇚ Arr⇐ Atail⤛ Barr⤎ E≦ Eg⪋ Har⥢",
  "la cuteĺ emptyv⦴ granℒ mbdaλ ng⟨ ngd⦑ ngle⟨ p⪅ quo«",
  "larr ← b⇤ bfs⤟ fs⤝ hk↩ lp↫ pl⤹ sim⥳ tl↢",
  "lat ⪫ ail⤙ e⪭ es⪭\ufe00",
  "lb arr⤌ brk❲ race\x7b rack[ rke⦋ rksld⦏ rkslu⦍",
  "l caronľ cedilļ ceil⌈ cub\x7b cyл dca⤶ dquo“ dquor„ drdhar⥧ drushar⥋ dsh↲ e≤",
  "left arrow← arrowtail↢ harpoondown↽ harpoonup↼ leftarrows⇇",
  "leftright arrow↔ arrows⇆ harpoons⇋ squigarrow↭",
  "le ftthreetimes⋋ g⋚ q≤ qq≦ qslant⩽",
  "les ⩽ cc⪨ dot⩿ doto⪁ dotor⪃ g⋚\ufe00 ges⪓ sapprox⪅ sdot⋖ seqgtr⋚ seqqgtr⪋ sgtr≶ ssim≲",
  "l fisht⥼ floor⌊ fr𝔩 g≶ gE⪑ hard↽ haru↼ harul⥪ hblk▄ jcyљ l≪ larr⇇ lcorner⌞ lhard⥫ ltri◺ midotŀ",
  "lmoust ⎰ ache⎰",
  "ln E≨ ap⪉ approx⪉ e⪇ eq⪇ eqq≨ sim⋦",
  "lo ang⟬ arr⇽ brk⟦ ngleftarrow⟵ ngleftrightarrow⟷ ngmapsto⟼",
  "lo ngrightarrow⟶ oparrowleft↫ oparrowright↬ par⦅ pf𝕝 plus⨭ times⨴ wast∗ wbar_ z◊ zenge◊ zf⧫",
  "lpar ( lt⦓",
  "lr arr⇆ corner⌟ har⇋ hard⥭ m\u200e tri⊿",
  "ls aquo‹ cr𝓁 h↰ im≲ ime⪍ img⪏ qb[ quo‘ quor‚ trokł",
  "lt < cc⪦ cir⩹ dot⋖ hree⋋ imes⋉ larr⥶ quest⩻ rPar⦖ ri◃ rie⊴ rif◂",
  "l urdshar⥊ uruhar⥦ vertneqq≨\ufe00 vnE≨\ufe00",
  "m DDot∺ acr¯ ale♂ alt✠ altese✠ ap↦",
  "mapsto ↦ down↧ left↤ up↥",
  "m arker▮ comma⨩ cyм dash— easuredangle∡ fr𝔪 ho℧ icroµ id∣ idast* idcir⫰ iddot·",
  "minus − b⊟ d∸ du⨪",
  "m lcp⫛ ldr… nplus∓ odels⊧ opf𝕞 p∓ scr𝓂 stpos∾ uμ ultimap⊸ umap⊸",
  "n Gg⋙̸ Gt≫⃒ Gtv≫̸ Leftarrow⇍ Leftrightarrow⇎ Ll⋘̸ Lt≪⃒ Ltv≪̸ Rightarrow⇏ VDash⊯ Vdash⊮",
  "na bla∇ cuteń ng∠⃒ p≉ pE⩰̸ pid≋̸ posŉ pprox≉ tur♮ tural♮ turalsℕ",
  "n bsp\u00a0 bump≎̸ bumpe≏̸ cap⩃ caronň cedilņ cong≇ congdot⩭̸ cup⩂ cyн dash–",
  "ne ≠ Arr⇗ arhk⤤ arr↗ arrow↗ dot≐̸ quiv≢ sear⤨ sim≂̸ xist∄ xists∄",
  "nfr 𝔫",
  "ng E≧̸ e≱ eq≱ eqq≧̸ eqslant⩾̸ es⩾̸ sim≵ t≯ tr≯",
  "n hArr⇎ harr↮ hpar⫲ i∋ is⋼ isd⋺ iv∋ jcyњ",
  "nl Arr⇍ E≦̸ arr↚ dr‥ e≰ eftarrow↚ eftrightarrow↮ eq≰ eqq≦̸ eqslant⩽̸ es⩽̸ ess≮ sim≴ t≮ tri⋪",
  "n ltrie⋬ mid∤ opf𝕟 ot¬",
  "notin ∉ E⋹̸ dot⋵̸ va∉ vb⋷ vc⋶",
  "notni ∌ va∌ vb⋾ vc⋽",
  "np ar∦ arallel∦ arsl⫽⃥ art∂̸ olint⨔ r⊀ rcue⋠ re⪯̸ rec⊀ receq⪯̸",
  "nr Arr⇏ arr↛ arrc⤳̸ arrw↝̸ ightarrow↛ tri⋫ trie⋭",
  "ns c⊁ ccue⋡ ce⪰̸ cr𝓃 hortmid∤ hortparallel∦ im≁ ime≄ imeq≄ mid∤ par∦ qsube⋢ qsupe⋣",
  "nsu b⊄ bE⫅̸ be⊈ bset⊂⃒ bseteq⊈ bseteqq⫅̸ cc⊁ cceq⪰̸ p⊅ pE⫆̸ pe⊉ pset⊃⃒ pseteq⊉ pseteqq⫆̸",
  "nt gl≹ ildeñ lg≸",
  "ntriangle left⋪ lefteq⋬ right⋫ righteq⋭",
  "nu ν m# mero№ msp\u2007",
  "nv Dash⊭ Harr⤄ ap≍⃒ dash⊬ ge≥⃒ gt>⃒ infin⧞ lArr⤂ le≤⃒ lt<⃒ ltrie⊴⃒ rArr⤃ rtrie⊵⃒ sim∼⃒",
  "nw Arr⇖ arhk⤣ arr↖ arrow↖ near⤧",
  "o SⓈ acuteó ast⊛ cir⊚ circô cyо dash⊝ dblacő div⨸ dot⊙ dsold⦼ eligœ fcir⦿ fr𝔬 gon˛",
  "o graveò gt⧁ hbar⦵ hmΩ int∮ larr↺ lcir⦾ lcross⦻ line‾ lt⧀ macrō megaω micronο mid⦶ minus⊖ opf𝕠",
  "op ar⦷ erp⦹ lus⊕",
  "or ∨ arr↻ d⩝ derℴ derofℴ dfª dmº igof⊶ or⩖ slope⩗ v⩛",
  "o scrℴ slashø sol⊘ tildeõ times⊗ timesas⨶ umlö vbar⌽",
  "par ∥ a¶ allel∥ sim⫳ sl⫽ t∂",
  "p cyп ercnt% eriod. ermil‰ erp⊥ ertenk‱ fr𝔭 hiφ hivϕ hmmatℳ hone☎ iπ itchfork⋔ ivϖ",
  "plan ckℏ ckhℎ kvℏ",
  "plus + acir⨣ b⊞ cir⨢ do∔ du⨥ e⩲ mn± sim⨦ two⨧",
  "p m± ointint⨕ opf𝕡 ound£ r≺ rE⪳ rap⪷ rcue≼ re⪯",
  "prec ≺ approx⪷ curlyeq≼ eq⪯ napprox⪹ neqq⪵ nsim⋨ sim≾",
  "pr ime′ imesℙ nE⪵ nap⪹ nsim⋨ od∏ ofalar⌮ ofline⌒ ofsurf⌓ op∝ opto∝ sim≾ urel⊰",
  "p scr𝓅 siψ uncsp\u2008",
  "q fr𝔮 int⨌ opf𝕢 prime⁗ scr𝓆 uaternionsℍ uatint⨖ uest? uesteq≟ uot\"",
  "r Aarr⇛ Arr⇒ Atail⤜ Barr⤏ Har⥤",
  "ra ce∽̱ cuteŕ dic√ emptyv⦳ ng⟩ ngd⦒ nge⦥ ngle⟩ quo»",
  "rarr → ap⥵ b⇥ bfs⤠ c⤳ fs⤞ hk↪ lp↬ pl⥅ sim⥴ tl↣ w↝",
  "rat ail⤚ io∶ ionalsℚ",
  "rb arr⤍ brk❳ race\x7d rack] rke⦌ rksld⦎ rkslu⦐",
  "rc aronř edilŗ eil⌉ ub\x7d yр",
  "rd ca⤷ ldhar⥩ quo” quor” sh↳",
  "real ℜ ineℛ partℜ sℝ",
  "r ect▭ eg® fisht⥽ floor⌋ fr𝔯 hard⇁ haru⇀ harul⥬ hoρ hovϱ",
  "rightarrow → tail↣",
  "right harpoondown⇁ harpoonup⇀ leftarrows⇄ leftharpoons⇌ rightarrows⇉ squigarrow↝ threetimes⋌",
  "r ing˚ isingdotseq≓ larr⇄ lhar⇌ lm\u200f moust⎱ moustache⎱ nmid⫮ oang⟭ oarr⇾ obrk⟧ opar⦆ opf𝕣",
  "r oplus⨮ otimes⨵ par) pargt⦔ ppolint⨒ rarr⇉ saquo› scr𝓇 sh↱ sqb] squo’ squor’ three⋌ times⋊",
  "rtri ▹ e⊵ f▸ ltri⧎",
  " ruluhar⥨ rx℞ sacuteś sbquo‚",
  "sc ≻ E⪴ ap⪸ aronš cue≽ e⪰ edilş ircŝ nE⪶ nap⪺ nsim⋩ polint⨓ sim≿ yс",
  "sdot ⋅ b⊡ e⩦",
  "se Arr⇘ arhk⤥ arr↘ arrow↘ ct§ mi; swar⤩ tminus∖ tmn∖ xt✶",
  "sfr 𝔰 own⌢",
  "sh arp♯ chcyщ cyш ortmid∣ ortparallel∥ y\u00ad",
  "sigma σ fς vς",
  "sim ∼ dot⩪ e≃ eq≃ g⪞ gE⪠ l⪝ lE⪟ ne≆ plus⨤ rarr⥲",
  "slarr ←",
  "sm allsetminus∖ ashp⨳ eparsl⧤ id∣ ile⌣ t⪪ te⪬ tes⪬\ufe00",
  "so ftcyь l/ lb⧄ lbar⌿ pf𝕤",
  "spa des♠ desuit♠ r∥",
  "sqc ap⊓ aps⊓\ufe00 up⊔ ups⊔\ufe00",
  "sqsu b⊏ be⊑ bset⊏ bseteq⊑ p⊐ pe⊒ pset⊐ pseteq⊒",
  "squ □ are□ arf▪ f▪",
  "s rarr→ scr𝓈 setmn∖ smile⌣ starf⋆ tar☆ tarf★ traightepsilonϵ traightphiϕ trns¯",
  "sub ⊂ E⫅ dot⪽ e⊆ edot⫃ mult⫁ nE⫋ ne⊊ plus⪿ rarr⥹",
  "subs et⊂ eteq⊆ eteqq⫅ etneq⊊ etneqq⫋ im⫇ ub⫕ up⫓",
  "succ ≻ approx⪸ curlyeq≽ eq⪰ napprox⪺ neqq⪶ nsim⋩ sim≿",
  "su m∑ ng♪",
  "sup ⊃ 1¹ 2² 3³ E⫆ dot⪾ dsub⫘ e⊇ edot⫄ hsol⟉ hsub⫗ larr⥻ mult⫂ nE⫌ ne⊋ plus⫀",
  "sups et⊃ eteq⊇ eteqq⫆ etneq⊋ etneqq⫌ im⫈ ub⫔ up⫖",
  "s wArr⇙ warhk⤦ warr↙ warrow↙ wnwar⤪ zligß",
  "t arget⌖ auτ brk⎴ caronť cedilţ cyт dot\u20db elrec⌕ fr𝔱",
  "th ere4∴ erefore∴ etaθ etasymϑ etavϑ ickapprox≈ icksim∼ insp\u2009 kap≈ ksim∼ ornþ",
  "t ilde˜ imes× imesb⊠ imesbar⨱ imesd⨰ int∭ oea⤨ op⊤ opbot⌶ opcir⫱ opf𝕥 opfork⫚ osa⤩ prime‴ rade™",
  "triangle ▵ down▿ left◃ lefteq⊴ q≜ right▹ righteq⊵",
  "tri dot◬ e≜ minus⨺ plus⨹ sb⧍ time⨻",
  "t rpezium⏢ scr𝓉 scyц shcyћ strokŧ wixt≬ woheadleftarrow↞ woheadrightarrow↠",
  "u Arr⇑ Har⥣ acuteú arr↑ brcyў breveŭ circû cyу darr⇅ dblacű",
  "u dhar⥮ fisht⥾ fr𝔲 graveù harl↿ harr↾ hblk▀ lcorn⌜ lcorner⌜ lcrop⌏ ltri◸ macrū ml¨ ogonų opf𝕦",
  "up arrow↑ downarrow↕ harpoonleft↿ harpoonright↾ lus⊎ siυ sihϒ silonυ uparrows⇈",
  "u rcorn⌝ rcorner⌝ rcrop⌎ ringů rtri◹ scr𝓊 tdot⋰ tildeũ tri▵ trif▴ uarr⇈ umlü wangle⦧",
  "v Arr⇕ Bar⫨ Barv⫩ Dash⊨ angrt⦜",
  "var epsilonϵ kappaϰ nothing∅ phiϕ piϖ propto∝ r↕ rhoϱ sigmaς",
  "varsubsetneq ⊊\ufe00 q⫋\ufe00",
  "varsupsetneq ⊋\ufe00 q⫌\ufe00",
  "vart hetaϑ riangleleft⊲ riangleright⊳",
  "v cyв dash⊢ ee∨ eebar⊻ eeeq≚ ellip⋮ erbar| ert| fr𝔳 ltri⊲ nsub⊂⃒",
  "v nsup⊃⃒ opf𝕧 prop∝ rtri⊳ scr𝓋 subnE⫋\ufe00 subne⊊\ufe00 supnE⫌\ufe00 supne⊋\ufe00 zigzag⦚",
  "w circŵ edbar⩟ edge∧ edgeq≙ eierp℘ fr𝔴 opf𝕨 p℘ r≀ reath≀ scr𝓌",
  "x cap⋂ circ◯ cup⋃ dtri▽ fr𝔵 hArr⟺ harr⟷ iξ lArr⟸",
  "x larr⟵ map⟼ nis⋻ odot⨀ opf𝕩 oplus⨁ otime⨂ rArr⟹ rarr⟶ scr𝓍 sqcup⨆ uplus⨄ utri△ vee⋁ wedge⋀",
  "y acuteý acyя circŷ cyы en¥ fr𝔶 icyї opf𝕪 scr𝓎 ucyю umlÿ",
  "z acuteź caronž cyз dotż eetrfℨ etaζ fr𝔷 hcyж igrarr⇝ opf𝕫 scr𝓏 wj\u200d wnj\u200c"]

end Compendium.Markdown
