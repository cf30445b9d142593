/-!
The programs that belong to the language. Those of its library can be used by name without being
installed; the examples stand beside the library.
-/

namespace Parlance.Bundle

/-! ### The library -/

def charts : String :=
  String.join [
    "\n",
    "\n",
    "define bar_chart with data\n",
    "  show table with headers [\"Value\"] and data rows data\n",
    "end\n",
    "\n"]

def colors : String :=
  String.join [
    "\n",
    "\n",
    "red is \"red\"\n",
    "green is \"green\"\n",
    "blue is \"blue\"\n",
    "yellow is \"yellow\"\n",
    "black is \"black\"\n",
    "white is \"white\"\n",
    "\n"]

def games : String :=
  String.join [
    "\n",
    "\n",
    "define game_loop with update_func\n",
    "  repeat forever\n",
    "    update_func\n",
    "  end\n",
    "end\n",
    "\n"]

def math : String :=
  String.join [
    "\n",
    "\n",
    "define sqrt with x\n",
    "  return python.call \"math.sqrt\" with x\n",
    "end\n",
    "\n",
    "define pow with base, exp\n",
    "  return python.call \"math.pow\" with base, exp\n",
    "end\n",
    "\n",
    "define sin with x\n",
    "  return python.call \"math.sin\" with x\n",
    "end\n",
    "\n",
    "define cos with x\n",
    "  return python.call \"math.cos\" with x\n",
    "end\n",
    "\n",
    "define tan with x\n",
    "  return python.call \"math.tan\" with x\n",
    "end\n",
    "\n"]

def sounds : String :=
  String.join [
    "\n",
    "\n",
    "define play with sound_name\n",
    "  say \"Playing sound: \" and sound_name\n",
    "end\n",
    "\n"]

def time : String :=
  String.join [
    "\n",
    "\n",
    "define now\n",
    "  return python.call \"datetime.datetime.now\" with\n",
    "end\n",
    "\n",
    "define sleep with seconds\n",
    "  wait seconds seconds\n",
    "end\n",
    "\n"]

def turtle : String :=
  String.join [
    "\n",
    "\n",
    "define forward with steps\n",
    "  say \"Turtle forward \" and steps\n",
    "end\n",
    "\n",
    "define turn with degrees\n",
    "  say \"Turtle turn \" and degrees\n",
    "end\n",
    "\n"]

def programs : List (String × String) :=
  [("charts.gopa", charts),
   ("colors.gopa", colors),
   ("games.gopa", games),
   ("math.gopa", math),
   ("sounds.gopa", sounds),
   ("time.gopa", time),
   ("turtle.gopa", turtle)]

/-! ### Examples -/

def morning : String :=
  String.join [
    "cron \"every day at 9:00\"\n",
    "  say \"good morning\"\n",
    "end\n",
    "\n"]

def hello : String :=
  String.join [
    "say \"Hello, Gopa!\"\n",
    "name is \"World\"\n",
    "say \"Hello, \" and name\n",
    "\n"]

def scores : String :=
  String.join [
    "server on port 3000\n",
    "  when get \"/\"\n",
    "    return \"hello world\"\n",
    "  end\n",
    "  when add \"/score\"\n",
    "    name is request.body[\"name\"]\n",
    "    score is request.body[\"score\"]\n",
    "    return object\n",
    "      status is \"saved\"\n",
    "      user is name\n",
    "      score is score\n",
    "    end\n",
    "  end\n",
    "end\n",
    "\n"]

def weather : String :=
  String.join [
    "city is \"Ames\"\n",
    "weather is get \"https://api.weather.com/today\" using city is city\n",
    "say \"Temperature in \" and city and \" is \" and weather.temp\n",
    "\n"]

def examples : List (String × String) :=
  [("cron.gopa", morning),
   ("hello.gopa", hello),
   ("server.gopa", scores),
   ("weather.gopa", weather)]

end Parlance.Bundle
