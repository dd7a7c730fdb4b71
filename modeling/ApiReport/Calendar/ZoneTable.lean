import ApiReport.Calendar.Season

/-!
# Named time zones

The named zones with their offset and their rule of summer time, as they are since 2024. A zone
whose rule has changed since is given by its later rule.

Key definitions: `zoneTable`.
-/
namespace ApiReport.Calendar

/-- The zones of each offset (in minutes) and rule. -/
def zoneTable : List (Zone × List String) := [
  (.fixed (-720), [
    "Etc/GMT+12"]),
  (.fixed (-660), [
    "Etc/GMT+11", "Pacific/Midway", "Pacific/Niue", "Pacific/Pago_Pago", "Pacific/Samoa"]),
  (.fixed (-600), [
    "Etc/GMT+10", "HST", "Pacific/Honolulu", "Pacific/Johnston", "Pacific/Rarotonga",
    "Pacific/Tahiti"]),
  (.seasonal (-600) northAmerican, [
    "America/Adak", "America/Atka"]),
  (.fixed (-570), [
    "Pacific/Marquesas"]),
  (.fixed (-540), [
    "Etc/GMT+9", "Pacific/Gambier"]),
  (.seasonal (-540) northAmerican, [
    "America/Anchorage", "America/Juneau", "America/Metlakatla", "America/Nome", "America/Sitka",
    "America/Yakutat"]),
  (.fixed (-480), [
    "Etc/GMT+8", "Pacific/Pitcairn"]),
  (.seasonal (-480) northAmerican, [
    "America/Ensenada", "America/Los_Angeles", "America/Santa_Isabel", "America/Tijuana",
    "America/Vancouver", "PST8PDT"]),
  (.fixed (-420), [
    "America/Creston", "America/Dawson", "America/Dawson_Creek", "America/Fort_Nelson",
    "America/Hermosillo", "America/Mazatlan", "America/Phoenix", "America/Whitehorse",
    "Etc/GMT+7", "MST"]),
  (.seasonal (-420) northAmerican, [
    "America/Boise", "America/Cambridge_Bay", "America/Ciudad_Juarez", "America/Denver",
    "America/Edmonton", "America/Inuvik", "America/Shiprock", "America/Yellowknife", "MST7MDT"]),
  (.fixed (-360), [
    "America/Bahia_Banderas", "America/Belize", "America/Chihuahua", "America/Costa_Rica",
    "America/El_Salvador", "America/Guatemala", "America/Managua", "America/Merida",
    "America/Mexico_City", "America/Monterrey", "America/Regina", "America/Swift_Current",
    "America/Tegucigalpa", "Etc/GMT+6", "Pacific/Galapagos"]),
  (.seasonal (-360) chilean, [
    "Pacific/Easter"]),
  (.seasonal (-360) northAmerican, [
    "America/Chicago", "America/Indiana/Knox", "America/Indiana/Tell_City", "America/Matamoros",
    "America/Menominee", "America/North_Dakota/Beulah", "America/North_Dakota/Center",
    "America/North_Dakota/New_Salem", "America/Ojinaga", "America/Rainy_River",
    "America/Rankin_Inlet", "America/Resolute", "America/Winnipeg", "CST6CDT"]),
  (.fixed (-300), [
    "America/Atikokan", "America/Bogota", "America/Cancun", "America/Cayman",
    "America/Coral_Harbour", "America/Eirunepe", "America/Guayaquil", "America/Jamaica",
    "America/Lima", "America/Panama", "America/Porto_Acre", "America/Rio_Branco", "EST",
    "Etc/GMT+5"]),
  (.seasonal (-300) cuban, [
    "America/Havana"]),
  (.seasonal (-300) northAmerican, [
    "America/Detroit", "America/Grand_Turk", "America/Indiana/Indianapolis",
    "America/Indiana/Marengo", "America/Indiana/Petersburg", "America/Indiana/Vevay",
    "America/Indiana/Vincennes", "America/Indiana/Winamac", "America/Iqaluit",
    "America/Kentucky/Louisville", "America/Kentucky/Monticello", "America/Montreal",
    "America/Nassau", "America/New_York", "America/Nipigon", "America/Pangnirtung",
    "America/Port-au-Prince", "America/Thunder_Bay", "America/Toronto", "EST5EDT"]),
  (.fixed (-240), [
    "America/Anguilla", "America/Antigua", "America/Aruba", "America/Barbados",
    "America/Blanc-Sablon", "America/Boa_Vista", "America/Campo_Grande", "America/Caracas",
    "America/Cuiaba", "America/Curacao", "America/Dominica", "America/Grenada",
    "America/Guadeloupe", "America/Guyana", "America/Kralendijk", "America/La_Paz",
    "America/Lower_Princes", "America/Manaus", "America/Marigot", "America/Martinique",
    "America/Montserrat", "America/Port_of_Spain", "America/Porto_Velho", "America/Puerto_Rico",
    "America/Santo_Domingo", "America/St_Barthelemy", "America/St_Kitts", "America/St_Lucia",
    "America/St_Thomas", "America/St_Vincent", "America/Tortola", "America/Virgin", "Etc/GMT+4"]),
  (.seasonal (-240) chilean, [
    "America/Santiago"]),
  (.seasonal (-240) northAmerican, [
    "America/Glace_Bay", "America/Goose_Bay", "America/Halifax", "America/Moncton",
    "America/Thule", "Atlantic/Bermuda"]),
  (.seasonal (-210) northAmerican, [
    "America/St_Johns"]),
  (.fixed (-180), [
    "America/Araguaina", "America/Argentina/Buenos_Aires", "America/Argentina/Catamarca",
    "America/Argentina/Cordoba", "America/Argentina/Jujuy", "America/Argentina/La_Rioja",
    "America/Argentina/Mendoza", "America/Argentina/Rio_Gallegos", "America/Argentina/Salta",
    "America/Argentina/San_Juan", "America/Argentina/San_Luis", "America/Argentina/Tucuman",
    "America/Argentina/Ushuaia", "America/Asuncion", "America/Bahia", "America/Belem",
    "America/Cayenne", "America/Coyhaique", "America/Fortaleza", "America/Maceio",
    "America/Montevideo", "America/Paramaribo", "America/Punta_Arenas", "America/Recife",
    "America/Santarem", "America/Sao_Paulo", "Antarctica/Palmer", "Antarctica/Rothera",
    "Atlantic/Stanley", "Etc/GMT+3"]),
  (.seasonal (-180) northAmerican, [
    "America/Miquelon"]),
  (.fixed (-120), [
    "America/Noronha", "Atlantic/South_Georgia", "Etc/GMT+2"]),
  (.seasonal (-120) european, [
    "America/Nuuk", "America/Scoresbysund"]),
  (.fixed (-60), [
    "Atlantic/Cape_Verde", "Etc/GMT+1"]),
  (.seasonal (-60) european, [
    "Atlantic/Azores"]),
  (.fixed 0, [
    "Africa/Abidjan", "Africa/Accra", "Africa/Bamako", "Africa/Banjul", "Africa/Bissau",
    "Africa/Conakry", "Africa/Dakar", "Africa/Freetown", "Africa/Lome", "Africa/Monrovia",
    "Africa/Nouakchott", "Africa/Ouagadougou", "Africa/Sao_Tome", "Africa/Timbuktu",
    "America/Danmarkshavn", "Atlantic/Reykjavik", "Atlantic/St_Helena", "Etc/GMT", "Etc/GMT+0",
    "Etc/GMT-0", "Etc/GMT0", "Etc/Greenwich", "Etc/UCT", "Etc/UTC", "Etc/Universal", "Etc/Zulu",
    "GMT", "UTC"]),
  (.seasonal 0 european, [
    "Atlantic/Canary", "Atlantic/Faroe", "Atlantic/Madeira", "Europe/Belfast", "Europe/Dublin",
    "Europe/Guernsey", "Europe/Isle_of_Man", "Europe/Jersey", "Europe/Lisbon", "Europe/London",
    "WET"]),
  (.fixed 60, [
    "Africa/Algiers", "Africa/Bangui", "Africa/Brazzaville", "Africa/Casablanca", "Africa/Douala",
    "Africa/El_Aaiun", "Africa/Kinshasa", "Africa/Lagos", "Africa/Libreville", "Africa/Luanda",
    "Africa/Malabo", "Africa/Ndjamena", "Africa/Niamey", "Africa/Porto-Novo", "Africa/Tunis",
    "Etc/GMT-1"]),
  (.seasonal 60 european, [
    "Africa/Ceuta", "Arctic/Longyearbyen", "Atlantic/Jan_Mayen", "CET", "Europe/Amsterdam",
    "Europe/Andorra", "Europe/Belgrade", "Europe/Berlin", "Europe/Bratislava", "Europe/Brussels",
    "Europe/Budapest", "Europe/Busingen", "Europe/Copenhagen", "Europe/Gibraltar",
    "Europe/Ljubljana", "Europe/Luxembourg", "Europe/Madrid", "Europe/Malta", "Europe/Monaco",
    "Europe/Oslo", "Europe/Paris", "Europe/Podgorica", "Europe/Prague", "Europe/Rome",
    "Europe/San_Marino", "Europe/Sarajevo", "Europe/Skopje", "Europe/Stockholm", "Europe/Tirane",
    "Europe/Vaduz", "Europe/Vatican", "Europe/Vienna", "Europe/Warsaw", "Europe/Zagreb",
    "Europe/Zurich", "MET"]),
  (.fixed 120, [
    "Africa/Blantyre", "Africa/Bujumbura", "Africa/Gaborone", "Africa/Harare",
    "Africa/Johannesburg", "Africa/Juba", "Africa/Khartoum", "Africa/Kigali", "Africa/Lubumbashi",
    "Africa/Lusaka", "Africa/Maputo", "Africa/Maseru", "Africa/Mbabane", "Africa/Tripoli",
    "Africa/Windhoek", "Asia/Gaza", "Asia/Hebron", "Etc/GMT-2", "Europe/Kaliningrad"]),
  (.seasonal 120 egyptian, [
    "Africa/Cairo"]),
  (.seasonal 120 european, [
    "Asia/Famagusta", "Asia/Nicosia", "EET", "Europe/Athens", "Europe/Bucharest",
    "Europe/Chisinau", "Europe/Helsinki", "Europe/Kyiv", "Europe/Mariehamn", "Europe/Nicosia",
    "Europe/Riga", "Europe/Sofia", "Europe/Tallinn", "Europe/Tiraspol", "Europe/Vilnius"]),
  (.seasonal 120 israeli, [
    "Asia/Jerusalem", "Asia/Tel_Aviv"]),
  (.seasonal 120 lebanese, [
    "Asia/Beirut"]),
  (.fixed 180, [
    "Africa/Addis_Ababa", "Africa/Asmara", "Africa/Dar_es_Salaam", "Africa/Djibouti",
    "Africa/Kampala", "Africa/Mogadishu", "Africa/Nairobi", "Antarctica/Syowa", "Asia/Aden",
    "Asia/Amman", "Asia/Baghdad", "Asia/Bahrain", "Asia/Damascus", "Asia/Istanbul", "Asia/Kuwait",
    "Asia/Qatar", "Asia/Riyadh", "Etc/GMT-3", "Europe/Istanbul", "Europe/Kirov", "Europe/Minsk",
    "Europe/Moscow", "Europe/Simferopol", "Europe/Volgograd", "Indian/Antananarivo",
    "Indian/Comoro", "Indian/Mayotte"]),
  (.fixed 210, [
    "Asia/Tehran"]),
  (.fixed 240, [
    "Asia/Baku", "Asia/Dubai", "Asia/Muscat", "Asia/Tbilisi", "Asia/Yerevan", "Etc/GMT-4",
    "Europe/Astrakhan", "Europe/Samara", "Europe/Saratov", "Europe/Ulyanovsk", "Indian/Mahe",
    "Indian/Mauritius", "Indian/Reunion"]),
  (.fixed 270, [
    "Asia/Kabul"]),
  (.fixed 300, [
    "Antarctica/Mawson", "Antarctica/Vostok", "Asia/Almaty", "Asia/Aqtau", "Asia/Aqtobe",
    "Asia/Ashgabat", "Asia/Atyrau", "Asia/Dushanbe", "Asia/Karachi", "Asia/Oral", "Asia/Qostanay",
    "Asia/Qyzylorda", "Asia/Samarkand", "Asia/Tashkent", "Asia/Yekaterinburg", "Etc/GMT-5",
    "Indian/Kerguelen", "Indian/Maldives"]),
  (.fixed 330, [
    "Asia/Colombo", "Asia/Kolkata"]),
  (.fixed 345, [
    "Asia/Kathmandu"]),
  (.fixed 360, [
    "Asia/Bishkek", "Asia/Dhaka", "Asia/Kashgar", "Asia/Omsk", "Asia/Thimphu", "Asia/Urumqi",
    "Etc/GMT-6", "Indian/Chagos"]),
  (.fixed 390, [
    "Asia/Yangon", "Indian/Cocos"]),
  (.fixed 420, [
    "Antarctica/Davis", "Asia/Bangkok", "Asia/Barnaul", "Asia/Ho_Chi_Minh", "Asia/Hovd",
    "Asia/Jakarta", "Asia/Krasnoyarsk", "Asia/Novokuznetsk", "Asia/Novosibirsk",
    "Asia/Phnom_Penh", "Asia/Pontianak", "Asia/Tomsk", "Asia/Vientiane", "Etc/GMT-7",
    "Indian/Christmas"]),
  (.fixed 480, [
    "Antarctica/Casey", "Asia/Brunei", "Asia/Choibalsan", "Asia/Chongqing", "Asia/Harbin",
    "Asia/Hong_Kong", "Asia/Irkutsk", "Asia/Kuala_Lumpur", "Asia/Kuching", "Asia/Macau",
    "Asia/Makassar", "Asia/Manila", "Asia/Shanghai", "Asia/Singapore", "Asia/Taipei",
    "Asia/Ulaanbaatar", "Australia/Perth", "Etc/GMT-8"]),
  (.fixed 525, [
    "Australia/Eucla"]),
  (.fixed 540, [
    "Asia/Chita", "Asia/Dili", "Asia/Jayapura", "Asia/Khandyga", "Asia/Pyongyang", "Asia/Seoul",
    "Asia/Tokyo", "Asia/Yakutsk", "Etc/GMT-9", "Pacific/Palau"]),
  (.fixed 570, [
    "Australia/Darwin"]),
  (.seasonal 570 australian, [
    "Australia/Adelaide", "Australia/Broken_Hill", "Australia/Yancowinna"]),
  (.fixed 600, [
    "Antarctica/DumontDUrville", "Asia/Ust-Nera", "Asia/Vladivostok", "Australia/Brisbane",
    "Australia/Lindeman", "Etc/GMT-10", "Pacific/Chuuk", "Pacific/Guam", "Pacific/Port_Moresby",
    "Pacific/Saipan", "Pacific/Yap"]),
  (.seasonal 600 australian, [
    "Antarctica/Macquarie", "Australia/Canberra", "Australia/Currie", "Australia/Hobart",
    "Australia/Melbourne", "Australia/Sydney"]),
  (.seasonal 630 lordHowe, [
    "Australia/Lord_Howe"]),
  (.fixed 660, [
    "Asia/Magadan", "Asia/Sakhalin", "Asia/Srednekolymsk", "Etc/GMT-11", "Pacific/Bougainville",
    "Pacific/Efate", "Pacific/Guadalcanal", "Pacific/Kosrae", "Pacific/Noumea", "Pacific/Pohnpei"]),
  (.seasonal 660 australian, [
    "Pacific/Norfolk"]),
  (.fixed 720, [
    "Asia/Anadyr", "Asia/Kamchatka", "Etc/GMT-12", "Pacific/Fiji", "Pacific/Funafuti",
    "Pacific/Kwajalein", "Pacific/Majuro", "Pacific/Nauru", "Pacific/Tarawa", "Pacific/Wake",
    "Pacific/Wallis"]),
  (.seasonal 720 newZealand, [
    "Antarctica/McMurdo", "Pacific/Auckland"]),
  (.seasonal 765 chatham, [
    "Pacific/Chatham"]),
  (.fixed 780, [
    "Etc/GMT-13", "Pacific/Apia", "Pacific/Fakaofo", "Pacific/Kanton", "Pacific/Tongatapu"]),
  (.fixed 840, [
    "Etc/GMT-14", "Pacific/Kiritimati"]),
  (.seasonal 0 twoHourEuropean, [
    "Antarctica/Troll"])]

end ApiReport.Calendar
