import RecordRows.Text.CodePoints

/-! Character classes of the cluster rules. -/
namespace RecordRows.Text

/-- Characters that always stand alone, line ends apart. -/
def clusterControl : CodePoints := ⟨#[
    0, 10, 11, 13, 14, 32, 127, 160, 173, 174, 1564, 1565, 6158, 6159, 8203, 8204, 8206, 8208,
    8232, 8239, 8288, 8304, 65279, 65280, 65520, 65532, 78896, 78912, 113824, 113828, 119155,
    119163, 917504, 917536, 917632, 917760, 918000, 921600]⟩

/-- Spacing marks, which stay with the character before them. -/
def clusterSpacing : CodePoints := ⟨#[
    2307, 2308, 2363, 2364, 2366, 2369, 2377, 2381, 2382, 2384, 2434, 2436, 2495, 2497, 2503,
    2505, 2507, 2509, 2563, 2564, 2622, 2625, 2691, 2692, 2750, 2753, 2761, 2762, 2763, 2765,
    2818, 2820, 2880, 2881, 2887, 2889, 2891, 2893, 3007, 3008, 3009, 3011, 3014, 3017, 3018,
    3021, 3073, 3076, 3137, 3141, 3202, 3204, 3262, 3263, 3265, 3266, 3267, 3269, 3315, 3316,
    3330, 3332, 3391, 3393, 3398, 3401, 3402, 3405, 3458, 3460, 3536, 3538, 3544, 3551, 3570,
    3572, 3635, 3636, 3763, 3764, 3902, 3904, 3967, 3968, 4145, 4146, 4155, 4157, 4182, 4184,
    4228, 4229, 6070, 6071, 6078, 6086, 6087, 6089, 6435, 6439, 6441, 6444, 6448, 6450, 6451,
    6457, 6681, 6683, 6741, 6742, 6743, 6744, 6765, 6771, 6916, 6917, 6974, 6978, 7042, 7043,
    7073, 7074, 7078, 7080, 7143, 7144, 7146, 7149, 7150, 7151, 7204, 7212, 7220, 7222, 7393,
    7394, 7415, 7416, 43043, 43045, 43047, 43048, 43136, 43138, 43188, 43204, 43346, 43347, 43395,
    43396, 43444, 43446, 43450, 43452, 43454, 43456, 43567, 43569, 43571, 43573, 43597, 43598,
    43755, 43756, 43758, 43760, 43765, 43766, 44003, 44005, 44006, 44008, 44009, 44011, 44012,
    44013, 69632, 69633, 69634, 69635, 69762, 69763, 69808, 69811, 69815, 69817, 69932, 69933,
    69957, 69959, 70018, 70019, 70067, 70070, 70079, 70080, 70094, 70095, 70188, 70191, 70194,
    70196, 70368, 70371, 70402, 70404, 70463, 70464, 70465, 70469, 70471, 70473, 70475, 70477,
    70498, 70500, 70585, 70587, 70602, 70603, 70604, 70606, 70709, 70712, 70720, 70722, 70725,
    70726, 70833, 70835, 70841, 70842, 70843, 70845, 70846, 70847, 70849, 70850, 71088, 71090,
    71096, 71100, 71102, 71103, 71216, 71219, 71227, 71229, 71230, 71231, 71340, 71341, 71342,
    71344, 71454, 71455, 71462, 71463, 71724, 71727, 71736, 71737, 71985, 71990, 71991, 71993,
    72000, 72001, 72002, 72003, 72145, 72148, 72156, 72160, 72164, 72165, 72249, 72250, 72279,
    72281, 72343, 72344, 72545, 72546, 72549, 72550, 72551, 72552, 72751, 72752, 72766, 72767,
    72873, 72874, 72881, 72882, 72884, 72885, 73098, 73103, 73107, 73109, 73110, 73111, 73461,
    73463, 73475, 73476, 73524, 73526, 73534, 73536, 90410, 90413, 94033, 94088]⟩

/-- Characters that stay with the character after them. -/
def clusterPrepend : CodePoints := ⟨#[
    1536, 1542, 1757, 1758, 1807, 1808, 2192, 2194, 2274, 2275, 3406, 3407, 69821, 69822, 69837,
    69838, 70082, 70084, 70609, 70610, 71999, 72000, 72001, 72002, 72324, 72330, 73030, 73031,
    73474, 73475]⟩

/-- Pictographs, which a joiner binds together (`Extended_Pictographic`). -/
def pictographic : CodePoints := ⟨#[
    169, 170, 174, 175, 8252, 8253, 8265, 8266, 8482, 8483, 8505, 8506, 8596, 8602, 8617, 8619,
    8986, 8988, 9000, 9001, 9167, 9168, 9193, 9204, 9208, 9211, 9410, 9411, 9642, 9644, 9654,
    9655, 9664, 9665, 9723, 9727, 9728, 9733, 9742, 9743, 9745, 9746, 9748, 9750, 9752, 9753,
    9757, 9758, 9760, 9761, 9762, 9764, 9766, 9767, 9770, 9771, 9774, 9776, 9784, 9787, 9792,
    9793, 9794, 9795, 9800, 9812, 9823, 9825, 9827, 9828, 9829, 9831, 9832, 9833, 9851, 9852,
    9854, 9856, 9874, 9880, 9881, 9882, 9883, 9885, 9888, 9890, 9895, 9896, 9898, 9900, 9904,
    9906, 9917, 9919, 9924, 9926, 9928, 9929, 9934, 9936, 9937, 9938, 9939, 9941, 9961, 9963,
    9968, 9974, 9975, 9979, 9981, 9982, 9986, 9987, 9989, 9990, 9992, 9998, 9999, 10000, 10002,
    10003, 10004, 10005, 10006, 10007, 10013, 10014, 10017, 10018, 10024, 10025, 10035, 10037,
    10052, 10053, 10055, 10056, 10060, 10061, 10062, 10063, 10067, 10070, 10071, 10072, 10083,
    10085, 10133, 10136, 10145, 10146, 10160, 10161, 10175, 10176, 10548, 10550, 11013, 11016,
    11035, 11037, 11088, 11089, 11093, 11094, 12336, 12337, 12349, 12350, 12951, 12952, 12953,
    12954, 126980, 126981, 127020, 127024, 127124, 127136, 127151, 127153, 127168, 127169, 127183,
    127185, 127222, 127232, 127344, 127346, 127358, 127360, 127374, 127375, 127377, 127387,
    127406, 127462, 127489, 127504, 127514, 127515, 127535, 127536, 127538, 127547, 127548,
    127552, 127561, 127584, 127590, 127778, 127780, 127892, 127894, 127896, 127897, 127900,
    127902, 127985, 127987, 127990, 127991, 127995, 128000, 128254, 128255, 128318, 128329,
    128335, 128336, 128360, 128367, 128369, 128371, 128379, 128391, 128392, 128394, 128398,
    128400, 128401, 128405, 128407, 128420, 128422, 128424, 128425, 128433, 128435, 128444,
    128445, 128450, 128453, 128465, 128468, 128476, 128479, 128481, 128482, 128483, 128484,
    128488, 128489, 128495, 128496, 128499, 128500, 128506, 128592, 128640, 128710, 128715,
    128723, 128725, 128742, 128745, 128746, 128747, 128753, 128755, 128768, 128986, 129024,
    129036, 129040, 129096, 129104, 129114, 129120, 129160, 129168, 129198, 129200, 129212,
    129216, 129218, 129232, 129241, 129280, 129292, 129339, 129340, 129350, 129351, 129536,
    129624, 129632, 129646, 129792, 130048, 131070]⟩

end RecordRows.Text
