/-!
# Canonical equivalence data

The tables of Unicode 15 behind the composed normal form, as text: canonical decompositions,
combining classes (`300-14=230`), and the characters that decompose but are never composed again.
Hangul syllables follow a rule and are not listed.
-/

namespace ShaderScript.Text.Normal

/-- Canonical decompositions, one step each.  An entry is the distance from the code point behind the
entry before, and what it and the code points behind it decompose to: two characters each after `=`,
one each after `:`. -/
def decompositionLines : List String := [
    "C0=ÀÁÂÃÄÅ 1=ÇÈÉÊËÌÍÎÏ 1=ÑÒÓÔÕÖ 2=ÙÚÛÜÝ 2=àáâãäå 1=çèéêëìíîï 1=ñòóôõö 2=ùúûüý 1=ÿĀāĂăĄąĆćĈĉĊċ",
    "0=ČčĎď 2=ĒēĔĕĖėĘęĚěĜĝĞğĠġĢģĤĥ 2=ĨĩĪīĬĭĮįİ 3=ĴĵĶķ 1=ĹĺĻļĽľ 4=ŃńŅņŇň 3=ŌōŎŏŐő 2=ŔŕŖŗŘřŚśŜŝŞşŠš",
    "0=ŢţŤť 2=ŨũŪūŬŭŮůŰűŲųŴŵŶŷŸŹźŻżŽž 21=Ơơ D=Ưư 1C=ǍǎǏǐǑǒǓǔǕǖǗǘǙǚǛǜ 1=ǞǟǠǡǢǣ 2=ǦǧǨǩǪǫǬǭǮǯǰ 3=Ǵǵ",
    "2=ǸǹǺǻǼǽǾǿȀȁȂȃȄȅȆȇȈȉȊȋȌȍȎȏȐȑȒȓȔȕȖȗȘșȚț 2=Ȟȟ 6=ȦȧȨȩȪȫȬȭȮȯȰȱȲȳ 10C:̀́ 1:̓ 0=̈́ 2F:ʹ 9:; 6=΅Ά 0:·",
    "0=ΈΉΊ 1=Ό 1=ΎΏΐ 19=ΪΫάέήίΰ 19=ϊϋόύώ 4=ϓϔ 2B=ЀЁ 1=Ѓ 3=Ї 4=ЌЍЎ A=Й 1F=й 16=ѐё 1=ѓ 3=ї 4=ќѝў",
    "17=Ѷѷ 49=Ӂӂ D=ӐӑӒӓ 2=Ӗӗ 2=ӚӛӜӝӞӟ 2=ӢӣӤӥӦӧ 2=ӪӫӬӭӮӯӰӱӲӳӴӵ 2=Ӹӹ 128=آأؤإئ 99=ۀ 1=ۂ 10=ۓ 255=ऩ",
    "7=ऱ 2=ऴ 23=क़ख़ग़ज़ड़ढ़फ़य़ 6B=োৌ F=ড়ঢ় 1=য় 53=ਲ਼ 2=ਸ਼ 22=ਖ਼ਗ਼ਜ਼ 2=ਫ਼ E9=ୈ 2=ୋୌ F=ଡ଼ଢ଼ 36=ஔ 35=ொோௌ",
    "7B=ై 77=ೀ 6=ೇೈ 1=ೊೋ 7E=ൊോൌ 8D=ේ 1=ොෝෞ 164=གྷ 9=ཌྷ 4=དྷ 4=བྷ 4=ཛྷ C=ཀྵ 9=ཱི 1=ཱུྲྀ 1=ླྀ 8=ཱྀ 11=ྒྷ 9=ྜྷ 4=ྡྷ",
    "4=ྦྷ 4=ྫྷ C=ྐྵ 6C=ဦ ADF=ᬆ 1=ᬈ 1=ᬊ 1=ᬌ 1=ᬎ 3=ᬒ 28=ᬻ 1=ᬽ 2=ᭀᭁ 1=ᭃ 2BC=ḀḁḂḃḄḅḆḇḈḉḊḋḌḍḎḏḐḑḒḓḔḕ",
    "0=ḖḗḘḙḚḛḜḝḞḟḠḡḢḣḤḥḦḧḨḩḪḫḬḭḮḯḰḱḲḳḴḵḶḷḸḹḺḻḼḽḾḿṀṁṂṃṄṅṆṇṈṉṊṋṌṍṎṏṐṑṒṓṔṕṖṗṘṙṚṛṜṝṞṟṠṡṢṣṤṥṦṧṨṩṪṫṬṭṮṯ",
    "0=ṰṱṲṳṴṵṶṷṸṹṺṻṼṽṾṿẀẁẂẃẄẅẆẇẈẉẊẋẌẍẎẏẐẑẒẓẔẕẖẗẘẙ 1=ẛ 4=ẠạẢảẤấẦầẨẩẪẫẬậẮắẰằẲẳẴẵẶặẸẹẺẻẼẽẾếỀềỂểỄễỆệỈ",
    "0=ỉỊịỌọỎỏỐốỒồỔổỖỗỘộỚớỜờỞởỠỡỢợỤụỦủỨứỪừỬửỮữỰựỲỳỴỵỶỷỸỹ 6=ἀἁἂἃἄἅἆἇἈἉἊἋἌἍἎἏἐἑἒἓἔἕ 2=ἘἙἚἛἜἝ",
    "2=ἠἡἢἣἤἥἦἧἨἩἪἫἬἭἮἯἰἱἲἳἴἵἶἷἸἹἺἻἼἽἾἿὀὁὂὃὄὅ 2=ὈὉὊὋὌὍ 2=ὐὑὒὓὔὕὖὗ 1=Ὑ 1=Ὓ 1=Ὕ 1=ὟὠὡὢὣὤὥὦὧὨὩὪὫὬὭὮὯ",
    "0=ὰ 0:ά 0=ὲ 0:έ 0=ὴ 0:ή 0=ὶ 0:ί 0=ὸ 0:ό 0=ὺ 0:ύ 0=ὼ 0:ώ 2=ᾀᾁᾂᾃᾄᾅᾆᾇᾈᾉᾊᾋᾌᾍᾎᾏᾐᾑᾒᾓᾔᾕᾖᾗᾘᾙᾚᾛᾜᾝᾞᾟᾠᾡ",
    "0=ᾢᾣᾤᾥᾦᾧᾨᾩᾪᾫᾬᾭᾮᾯᾰᾱᾲᾳᾴ 1=ᾶᾷᾸᾹᾺ 0:Ά 0=ᾼ 1:ι 2=῁ῂῃῄ 1=ῆῇῈ 0:Έ 0=Ὴ 0:Ή 0=ῌ῍῎῏ῐῑῒ 0:ΐ 2=ῖῗῘῙῚ 0:Ί",
    "1=῝῞῟ῠῡῢ 0:ΰ 0=ῤῥῦῧῨῩῪ 0:Ύ 0=Ῥ῭ 0:΅` 2=ῲῳῴ 1=ῶῷῸ 0:Ό 0=Ὼ 0:Ώ 0=ῼ 0:´ 2:\u2002\u2003 124:Ω",
    "3:KÅ 6E=↚↛ 12=↮ 1E=⇍⇎⇏ 34=∄ 4=∉ 2=∌ 17=∤ 1=∦ 1A=≁ 2=≄ 2=≇ 1=≉ 16=≠ 1=≢ A=≭≮≯≰≱ 2=≴≵ 2=≸≹",
    "6=⊀⊁ 2=⊄⊅ 2=⊈⊉ 22=⊬⊭⊮⊯ 30=⋠⋡⋢⋣ 6=⋪⋫⋬⋭ 3B:〈〉 7B1=⫝̸ 56F=が 1=ぎ 1=ぐ 1=げ 1=ご 1=ざ 1=じ",
    "1=ず 1=ぜ 1=ぞ 1=だ 1=ぢ 2=づ 1=で 1=ど 6=ばぱ 1=びぴ 1=ぶぷ 1=べぺ 1=ぼぽ 16=ゔ 9=ゞ D=ガ",
    "1=ギ 1=グ 1=ゲ 1=ゴ 1=ザ 1=ジ 1=ズ 1=ゼ 1=ゾ 1=ダ 1=ヂ 2=ヅ 1=デ 1=ド 6=バパ 1=ビピ 1=ブプ",
    "1=ベペ 1=ボポ 16=ヴ 2=ヷヸヹヺ 3=ヾ C801:豈更車賈滑串句龜龜契金喇奈懶癩羅蘿螺裸邏樂洛烙珞落",
    "0:酪駱亂卵欄爛蘭鸞嵐濫藍襤拉臘蠟廊朗浪狼郎來冷勞擄櫓爐盧老蘆虜路露魯鷺碌祿綠菉錄鹿論壟弄籠聾",
    "0:牢磊賂雷壘屢樓淚漏累縷陋勒肋凜凌稜綾菱陵讀拏樂諾丹寧怒率異北磻便復不泌數索參塞省葉說殺辰沈",
    "0:拾若掠略亮兩凉梁糧良諒量勵呂女廬旅濾礪閭驪麗黎力曆歷轢年憐戀撚漣煉璉秊練聯輦蓮連鍊列劣咽烈",
    "0:裂說廉念捻殮簾獵令囹寧嶺怜玲瑩羚聆鈴零靈領例禮醴隸惡了僚寮尿料樂燎療蓼遼龍暈阮劉杻柳流溜琉",
    "0:留硫紐類六戮陸倫崙淪輪律慄栗率隆利吏履易李梨泥理痢罹裏裡里離匿溺吝燐璘藺隣鱗麟林淋臨立笠粒",
    "0:狀炙識什茶刺切度拓糖宅洞暴輻行降見廓兀嗀 2:塚 1:晴 2:凞猪益礼神祥福靖精羽 1:蘒 1:諸 2:逸都",
    "3:飯飼館鶴郞隷侮僧免勉勤卑喝嘆器塀墨層屮悔慨憎懲敏既暑梅海渚漢煮爫琢碑社祉祈祐祖祝禍禎穀突節",
    "0:練縉繁署者臭艹艹著褐視謁謹賓贈辶逸難響頻恵𤋮舘 2:並况全侀充冀勇勺喝啕喙嗢塚墳奄奔婢嬨廒廙",
    "0:彩徭惘慎愈憎慠懲戴揄搜摒敖晴朗望杖歹殺流滛滋漢瀞煮瞧爵犯猪瑱甆画瘝瘟益盛直睊着磌窱節类絛練",
    "0:缾者荒華蝹襁覆視調諸請謁諾諭謹變贈輸遲醙鉶陼難靖韛響頋頻鬒龜𢡊𢡄𣏕㮝䀘䀹𥉉𥳐𧻓齃龎 43=יִ",
    "1=ײַ A=שׁשׂשּׁשּׂאַאָאּבּגּדּהּוּזּ 1=טּיּךּכּלּ 1=מּ 1=נּסּ 1=ףּפּ 1=צּקּרּשּתּוֹבֿכֿפֿ 154B=𑂚 1=𑂜 E=𑂫 82=𑄮𑄯 21B=𑍋𑍌 16E=𑒻𑒼",
    "1=𑒾 FB=𑖺𑖻 37C=𑤸 B825=𝅗𝅥𝅘𝅥𝅘𝅥𝅮𝅘𝅥𝅯𝅘𝅥𝅰𝅘𝅥𝅱𝅘𝅥𝅲 56=𝆹𝅥𝆺𝅥𝆹𝅥𝅮𝆺𝅥𝅮𝆹𝅥𝅯𝆺𝅥𝅯 1263F:丽丸乁𠄢你侮侻倂偺備僧像㒞𠘺免兔兤具𠔜㒹內",
    "0:再𠕋冗冤仌冬况𩇟凵刃㓟刻剆割剷㔕勇勉勤勺包匆北卉卑博即卽卿卿卿𠨬灰及叟𠭣叫叱吆咞吸呈周咢哶",
    "0:唐啓啣善善喙喫喳嗂圖嘆圗噑噴切壮城埴堍型堲報墬𡓤売壷夆多夢奢𡚨𡛪姬娛娧姘婦㛮㛼嬈嬾嬾𡧈寃寘",
    "0:寧寳𡬘寿将当尢㞁屠屮峀岍𡷤嵃𡷦嵮嵫嵼巡巢㠯巽帨帽幩㡢𢆃㡼庰庳庶廊𪎒廾𢌱𢌱舁弢弢㣇𣊸𦇚形彫㣣",
    "0:徚忍志忹悁㤺㤜悔𢛔惇慈慌慎慌慺憎憲憤憯懞懲懶成戛扝抱拔捐𢬌挽拼捨掃揤𢯱搢揅掩㨮摩摾撝摷㩬敏",
    "0:敬𣀊旣書晉㬙暑㬈㫤冒冕最暜肭䏙朗望朡杞杓𣏃㭉柺枅桒梅𣑭梎栟椔㮝楂榣槪檨𣚣櫛㰘次𣢧歔㱎歲殟殺",
    "0:殻𣪍𡴋𣫺汎𣲼沿泍汧洖派海流浩浸涅𣴞洴港湮㴳滋滇𣻑淹潮𣽞𣾎濆瀹瀞瀛㶖灊災灷炭𠔥煅𤉣熜𤎫爨爵牐",
    "0:𤘈犀犕𤜵𤠔獺王㺬玥㺸㺸瑇瑜瑱璅瓊㼛甤𤰶甾𤲒異𢆟瘐𤾡𤾸𥁄㿼䀈直𥃳𥃲𥄙𥄳眞真真睊䀹瞋䁆䂖𥐝硎碌",
    "0:磌䃣𥘦祖𥚚𥛅福秫䄯穀穊穏𥥼𥪧𥪧竮䈂𥮫篆築䈧𥲀糒䊠糨糣紀𥾆絣䌁緇縂繅䌴𦈨𦉇䍙𦋙罺𦌾羕翺者𦓚𦔣",
    "0:聠𦖨聰𣍟䏕育脃䐋脾媵𦞧𦞵𣎓𣎜舁舄辞䑫芑芋芝劳花芳芽苦𦬼若茝荣莭茣莽菧著荓菊菌菜𦰶𦵫𦳕䔫蓱蓳",
    "0:蔖𧏊蕤𦼬䕝䕡𦾱𧃒䕫虐虜虧虩蚩蚈蜎蛢蝹蜨蝫螆䗗蟡蠁䗹衠衣𧙧裗裞䘵裺㒻𧢮𧥦䚾䛇誠諭變豕𧲨貫賁贛",
    "0:起𧼯𠠄跋趼跰𠣞軔輸𨗒𨗭邔郱鄑𨜮鄛鈸鋗鋘鉼鏹鐕𨯺開䦕閷𨵷䧦雃嶲霣𩅅𩈚䩮䩶韠𩐊䪲𩒖頋頋頩𩖶飢䬳",
    "0:餩馧駂駾䯎𩬰鬒鱀鳽䳎䳭鵧𪃎䳸𪄅𪈎𪊑麻䵖黹黾鼅鼏鼖鼻𪘀"]

/-- Combining classes other than zero. -/
def classLines : List String := [
    "300-14=230 232 1-3=220 232 216 1-4=220 1-1=202 1-3=220 1-1=202 1-A=220 1-4=1 1-3=220 1-7=230",
    "240 230 1-2=220 1-2=230 1-1=220 2-2=230 1-3=220 230 232 1-1=220 230 233 1-1=234 233 1-1=234",
    "233 1-C=230 114-4=230 10A=220 1-3=230 220 1-2=230 222 220 1-5=230 1-5=220 1-1=230 220 1-1=230",
    "222 228 230 10 11 12 13 14 15 16 17 18 1-1=19 20 21 22 2=23 2=24 25 2=230 220 2=18 49-7=230 30",
    "31 32 31=27 28 29 30 31 32 33 34 1-1=230 1-1=220 1-4=230 220 1-1=230 220 11=35 66-6=230",
    "3-3=230 220 230 3-1=230 2=220 1-1=230 220 24=36 1F=230 220 1-1=230 220 1-1=230 1-2=220 230",
    "1-1=220 230 220 1-2=230 220 230 220 230 220 230 220 1-1=230 A1-6=230 220 230 A=220 19-3=230",
    "2-8=230 2-2=230 2-4=230 2C-2=220 3D=230 1-2=220 1-3=230 2B-4=230 1-4=220 1-D=230 2=220 1-1=230",
    "220 1-1=230 220 1-2=230 1-2=220 27 28 29 1-2=230 220 1-1=230 1-1=220 1-4=230 3D=7 11=9 4=230",
    "220 1-1=230 68=7 11=9 31=230 3E=7 11=9 6F=7 11=9 6F=7 11=9 80=9 6F=7 11=9 8=84 91 66=7 11=9",
    "6E-1=9 11=9 7D=9 6E-1=103 9 E-3=107 6D-1=118 9 E-3=122 4D-1=220 1C=220 2=220 2=216 38=129 130",
    "2=132 6-3=130 3=130 2-1=230 9 2-1=230 3F=220 71=7 2-1=9 53=220 2D0-2=230 3B5-1=9 1F=9 9E=9",
    "B=230 CC=228 90=222 230 220 DC=230 220 48=9 15-7=230 3=220 31-4=230 1-5=220 1-1=230 220",
    "2-1=220 1-1=230 1-1=220 1-4=230 220 1-3=230 66=7 10=9 27=230 220 1-6=230 37-1=9 3B=7 C-1=9",
    "44=7 99-2=230 2=1 1-4=220 1-1=230 1-3=220 230 2-6=1 5=220 7=230 4-1=230 C7-1=230 220 1-6=230",
    "220 1-1=230 234 214 220 202 1-24=230 232 1-1=228 220 218 230 233 220 230 220 2D1-1=230 1-1=1",
    "1-3=230 1-2=1 1-1=230 5=230 4-1=1 230 220 230 1-1=1 1-3=220 230 BFF-2=230 8E=9 61-1F=230",
    "22B=218 228 232 222 1-1=224 6A-1=8 75D5=230 5-9=230 21-1=230 51-1=230 115=9 26=9 98=9",
    "1C-11=230 3A-2=220 26=9 60=7 D=9 F0=230 2-1=230 220 3-1=230 6-1=230 2=230 35=9 F7=9 4F31=26",
    "302-6=230 1-6=220 1-1=230 3CE=220 E3=220 96-4=230 693=220 2=230 29=230 1 220 5=9 A6=230 220",
    "23E-3=230 184-1=230 51-2=220 47-1=220 1-2=230 220 230 1-3=220 32=230 220 230 220 C1=9 2A=9 F=9",
    "3A=9 7 46-2=230 31-1=9 3F=7 4D=9 A=7 6B=9 7 B3=7 9 51-1=7 11=9 19-6=230 4-4=230 CE=9 4=7",
    "18=230 64=9 7 FC=9 7 7F=9 77=9 7 74=9 10E=9 7 103-1=9 5=7 9D=9 54=9 13=9 52=9 1A6=9 103=7",
    "2-1=9 52=9 1AA-1=9 4BAE-4=1 3C-6=230 4BA-1=6 4CAD=1 14C7-1=216 1-2=1 4=226 1-4=216 9-7=220",
    "3-4=230 1-1=220 1F-3=230 95-2=230 DBC-6=230 2-10=230 3-6=230 2-1=230 2-4=230 65=230 A1-6=230",
    "178=230 3E-3=230 1FD-1=232 220 230 3E1-6=220 6E-5=230 7"]

/-- Characters that no pair composes to. -/
def excludedLines : List String := [
    "344 614-7 7D-1 2 54 3 23-2 3 FE-1 3E6 A 5 5 5 D A 2-1 2 9 12 A 5 5 5 D 1B23 D041 2 B-C 2-4 2",
    "2-1 2-1 2-8 D610-6 57-5"]

end ShaderScript.Text.Normal
